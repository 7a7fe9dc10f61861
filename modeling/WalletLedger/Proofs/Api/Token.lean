import WalletLedger.Proofs.Api.Server

/-!
# Requests without the token

The token is looked at before the history is.  A request without it therefore gets an answer
that depends on the request and the server alone, and the program that makes the answer is
over before it asks the history for anything.
-/

namespace WalletLedger
namespace Api

open Http (Request Response)

/-!
# Handlers that want the token
-/

/-- The resources that are only for those who have the token, with a parameter that is a text
once it is decoded. -/
def Resource.Guarded : Resource → Prop
  | .history | .count | .status | .refresh => True
  | .byIndex parameter | .byHash parameter =>
      ∃ text, Url.percentText? parameter.toList = some text
  | .health | .unknown => False

structure Reaches (r : Request) (resource : Resource) : Prop where
  guarded : resource.Guarded
  path : resource.Names r.path
  method : if resource = .refresh then r.method = .post else r.method = .get ∨ r.method = .head

namespace Reaches

variable {r : Request} {resource : Resource}

theorem method_ne_options (h : Reaches r resource) : r.method ≠ .options := by
  have hmethod := h.method
  intro hoptions
  rw [hoptions] at hmethod
  split at hmethod
  · cases hmethod
  · rcases hmethod with hget | hhead
    · cases hget
    · cases hhead

theorem accepts (h : Reaches r resource) : resource.accepts r.method = true := by
  have hmethod := h.method
  split at hmethod
  · next hrefresh =>
      rw [hrefresh, hmethod]
      rfl
  · next hrefresh => exact Resource.accepts_reading hrefresh hmethod

end Reaches

namespace Server

variable {server : Server} {r : Request}

/-!
# What is not the token
-/

/-- The first value of the header is missing, is no plain text or is not the token. -/
def Lacks (server : Server) (r : Request) : Prop :=
  ∀ value, r.header? "x-api-token" = some value →
    Http.isPlainValue value = false ∨ value ≠ server.token

theorem authorizes_of_lacks (htoken : server.token ≠ "") (h : server.Lacks r) :
    server.authorizes r = false := by
  unfold authorizes tokenOf
  rw [beq_eq_false_iff_ne]
  cases hheader : r.header? "x-api-token" with
  | none => exact htoken.symm
  | some value =>
      rcases h value hheader with hplain | hother
      · simp only [hplain]
        exact htoken.symm
      · by_cases hplain : Http.isPlainValue value = true
        · simp only [hplain, if_pos]
          exact hother
        · simp only [if_neg hplain]
          exact htoken.symm

/-!
# Answers given out of hand
-/

theorem withParameter_of_not_authorizes (h : server.authorizes r = false)
    (name parameter : String) (next : String → Program Response) :
    ∃ reply, withParameter name parameter (fun text => server.guarded r (next text)) =
        .done reply ∧
      ((∃ text, Url.percentText? parameter.toList = some text) →
        reply = Refusal.badToken.response) := by
  unfold withParameter
  cases htext : Url.percentText? parameter.toList with
  | some text => exact ⟨_, guarded_of_not_authorizes h _, fun _ => rfl⟩
  | none => exact ⟨_, rfl, nofun⟩

/-- Without the token no handler gets as far as the history, and guarded ones say why. -/
theorem handle_of_not_authorizes (h : server.authorizes r = false) (resource : Resource) :
    ∃ reply, server.handle r resource = .done reply ∧
      (resource.Guarded → reply = Refusal.badToken.response) := by
  cases resource with
  | health => exact ⟨_, rfl, nofun⟩
  | unknown => exact ⟨_, rfl, nofun⟩
  | history => exact ⟨_, guarded_of_not_authorizes h _, fun _ => rfl⟩
  | count => exact ⟨_, guarded_of_not_authorizes h _, fun _ => rfl⟩
  | status => exact ⟨_, guarded_of_not_authorizes h _, fun _ => rfl⟩
  | refresh => exact ⟨_, guarded_of_not_authorizes h _, fun _ => rfl⟩
  | byIndex parameter => exact withParameter_of_not_authorizes h "index" parameter getByIndex
  | byHash parameter => exact withParameter_of_not_authorizes h "hash" parameter getByHash

theorem route_of_not_authorizes (h : server.authorizes r = false) :
    ∃ reply, server.route r = .done reply := by
  unfold route
  simp only
  split
  · exact ⟨_, rfl⟩
  · split
    · exact ⟨_, rfl⟩
    · next found _ =>
        split
        · rcases handle_of_not_authorizes h found with ⟨reply, hreply, _⟩
          exact ⟨reply, hreply⟩
        · exact ⟨_, rfl⟩

theorem route_of_reaches (h : server.authorizes r = false) {resource : Resource}
    (hreaches : Reaches r resource) : server.route r = .done Refusal.badToken.response := by
  rcases handle_of_not_authorizes h resource with ⟨reply, hreply, hrefused⟩
  rw [server.route_of_names hreaches.path hreaches.method_ne_options hreaches.accepts, hreply,
    hrefused hreaches.guarded]

/-- A request without the token is answered out of hand: the program asks the history for
nothing, so no engine is called, nothing changes, and no two histories or engines make a
difference to the answer, which is that of a bad token wherever a token is wanted. -/
theorem respond_without_token (htoken : server.token ≠ "") (hlacks : server.Lacks r) :
    (∃ reply, server.respond r = .done reply ∧ ∀ resource, Reaches r resource →
      reply.status = ⟨401⟩ ∧ reply.body = if r.method = .head then .empty
        else .json (.object [("error", .string "invalid or missing X-API-Token")])) ∧
    ∀ {σ τ : Type} (a : Service σ) (s : Session σ) (b : Service τ) (t : Session τ),
      ((server.respond r).run a s).result = ((server.respond r).run b t).result ∧
        ((server.respond r).run a s).session = s ∧
        ((server.respond r).run a s).notices = [] := by
  have hrefused := authorizes_of_lacks htoken hlacks
  rcases route_of_not_authorizes hrefused with ⟨routed, hrouted⟩
  have hrespond : server.respond r = .done (server.finish r routed) := by
    unfold respond
    rw [hrouted]
    rfl
  constructor
  · refine ⟨_, hrespond, ?_⟩
    intro resource hreaches
    rw [route_of_reaches hrefused hreaches] at hrouted
    cases hrouted
    rw [finish_status, finish_body]
    exact ⟨rfl, rfl⟩
  · intro σ τ a s b t
    rw [hrespond]
    exact ⟨rfl, rfl, rfl⟩

def keeper : Server :=
  ⟨"open sesame", "http://127.0.0.1:3090"⟩

/-- A request that names another token before the right one. -/
def secondTry : Request where
  method := .post
  target := "/api/v1/history/refresh?again"
  headers := [("X-Api-Token", "abracadabra"), ("x-api-token", "open sesame")]

theorem respond_without_token_secondTry :
    keeper.token ≠ "" ∧ keeper.Lacks secondTry ∧ Reaches secondTry .refresh ∧
      ∃ reply, keeper.respond secondTry = .done reply ∧ reply.status = ⟨401⟩ := by
  have htoken : keeper.token ≠ "" := by decide
  have hheader : secondTry.header? "x-api-token" = some "abracadabra" := by decide
  have hlacks : keeper.Lacks secondTry := by
    intro value hvalue
    rw [hheader] at hvalue
    cases hvalue
    exact .inr (by decide)
  have hpath : secondTry.path = "/api/v1/history/refresh" := by decide
  have hreaches : Reaches secondTry .refresh := ⟨trivial, hpath ▸ .refresh, rfl⟩
  rcases (respond_without_token htoken hlacks).1 with ⟨reply, hreply, hrefused⟩
  exact ⟨htoken, hlacks, hreaches, reply, hreply, (hrefused _ hreaches).1⟩

end Server
end Api
end WalletLedger
