import WalletLedger.Proofs.Api.Token

/-!
# Paths that name nothing

The paths of the service are those that begin with `/api` and nothing else in the first
piece.  One that names nothing is answered with the reason, whatever its pieces are, how many
there are and which of them are empty.  There is one exception: where nothing but a slash
follows `/api`, there is no answer of the service.
-/

namespace WalletLedger
namespace Api

open Http (Request Response)

namespace Resource

/-!
# Paths of the service
-/

def OfService (path : String) : Prop :=
  path = "/api" ∨ ∃ rest, path = "/api/" ++ rest

structure Unnamed (path : String) : Prop where
  ofService : OfService path
  unnamed : ∀ resource, ¬ Names resource path

theorem pieces_behind (rest : String) : pieces ("/api/" ++ rest) = "" :: "api" :: pieces rest := by
  change pieces ("/api" ++ "/" ++ rest) = _
  rw [pieces_append]
  rfl

theorem ofPieces?_eq_none_iff {ps : List String} : ofPieces? ps = none ↔ ps = [""] := by
  constructor
  · intro h
    unfold ofPieces? at h
    split at h
    · cases h
    · rfl
    · cases h
    · cases h
    · cases h
    · cases h
    · cases h
    · split at h <;> cases h
    · split at h <;> cases h
    · cases h
  · intro h
    rw [h]
    rfl

theorem pieces_eq_empty_iff {rest : String} : pieces rest = [""] ↔ rest = "" :=
  pieces_injective.eq_iff' rfl

theorem ofPath?_eq_none_iff {path : String} (h : OfService path) :
    ofPath? path = none ↔ path = "/api/" := by
  rcases h with rfl | ⟨rest, rfl⟩
  · exact iff_of_false nofun (by decide)
  · unfold ofPath?
    rw [pieces_behind]
    change ofPieces? (pieces rest) = none ↔ "/api/" ++ rest = "/api/"
    rw [ofPieces?_eq_none_iff, pieces_eq_empty_iff]
    constructor
    · intro h
      rw [h]
      rfl
    · intro h
      exact (String.append_right_inj "/api/").mp (h.trans String.append_empty.symm)

theorem ofPath?_of_unnamed {path : String} (h : Unnamed path) (hrest : path ≠ "/api/") :
    ofPath? path = some .unknown := by
  cases hfound : ofPath? path with
  | none => exact absurd ((ofPath?_eq_none_iff h.ofService).mp hfound) hrest
  | some resource =>
      by_contra hknown
      exact h.unnamed resource (names_of_ofPath? hfound fun heq => hknown (congrArg some heq))

theorem not_names_of_ofPath? {path : String} (h : ∀ resource, ofPath? path = some resource →
    resource = .unknown) (resource : Resource) : ¬ Names resource path := by
  intro hnames
  cases h resource (ofPath?_of_names hnames)
  cases hnames

end Resource

namespace Server

/-!
# Answers
-/

theorem route_of_unnamed (server : Server) {r : Request} (h : Resource.Unnamed r.path)
    (hoptions : r.method ≠ .options) :
    server.route r =
      .done (if r.path = "/api/" then .bare .notFound else Refusal.noRoute.response) := by
  unfold route
  simp only
  rw [if_neg hoptions]
  by_cases hrest : r.path = "/api/"
  · rw [(Resource.ofPath?_eq_none_iff h.ofService).mpr hrest, if_pos hrest]
  · rw [Resource.ofPath?_of_unnamed h hrest, if_neg hrest]
    rfl

/-- A path of the service that names nothing is answered by saying so, without a look at the
history or the engine.  Only where the path ends with the slash behind `/api` does the answer
say nothing. -/
theorem respond_of_unnamed (server : Server) {r : Request} (h : Resource.Unnamed r.path)
    (hoptions : r.method ≠ .options) (hhead : r.method ≠ .head) :
    ∃ reply, server.respond r = .done reply ∧ reply.status = ⟨404⟩ ∧
      (r.path ≠ "/api/" → reply.body = .json (.object [("error", .string "API route not found")])) ∧
      (r.path = "/api/" → reply.body = .empty) ∧
      ∀ {σ : Type} (service : Service σ) (s : Session σ),
        (server.respond r).run service s = ⟨reply, [], s⟩ := by
  have hrespond : server.respond r = .done (server.finish r
      (if r.path = "/api/" then .bare .notFound else Refusal.noRoute.response)) := by
    unfold respond
    rw [server.route_of_unnamed h hoptions]
    rfl
  refine ⟨_, hrespond, ?_, ?_, ?_, ?_⟩
  · rw [finish_status]
    split <;> rfl
  · intro hrest
    rw [finish_body, if_neg hhead, if_neg hrest]
    rfl
  · intro hrest
    rw [finish_body, if_neg hhead, if_pos hrest]
    rfl
  · intro σ service s
    rw [hrespond]
    rfl

def strayRequest : Request where
  method := .post
  target := "/api/v1/history/index/0//?again"
  headers := [("x-api-token", "open sesame")]

theorem unnamed_strayRequest : Resource.Unnamed strayRequest.path := by
  have hpath : strayRequest.path = "/api/v1/history/index/0//" := by decide
  have hfound : Resource.ofPath? "/api/v1/history/index/0//" = some .unknown := by decide
  rw [hpath]
  refine ⟨.inr ⟨"v1/history/index/0//", by decide⟩, Resource.not_names_of_ofPath? ?_⟩
  intro resource h
  rw [hfound] at h
  exact (Option.some.inj h).symm

theorem respond_of_unnamed_stray :
    Resource.Unnamed strayRequest.path ∧ strayRequest.method ≠ .options ∧
      strayRequest.method ≠ .head ∧
      ∃ reply, keeper.respond strayRequest = .done reply ∧ reply.status = ⟨404⟩ ∧
        reply.body = .json (.object [("error", .string "API route not found")]) := by
  have hoptions : strayRequest.method ≠ .options := by decide
  have hhead : strayRequest.method ≠ .head := by decide
  rcases keeper.respond_of_unnamed unnamed_strayRequest hoptions hhead with
    ⟨reply, hreply, hstatus, hbody, _⟩
  exact ⟨unnamed_strayRequest, hoptions, hhead, reply, hreply, hstatus, hbody (by decide)⟩

def slashRequest : Request where
  method := .get
  target := "/api/"
  headers := [("x-api-token", "open sesame")]

theorem unnamed_slashRequest : Resource.Unnamed slashRequest.path := by
  have hpath : slashRequest.path = "/api/" := by decide
  have hfound : Resource.ofPath? "/api/" = none := by decide
  rw [hpath]
  refine ⟨.inr ⟨"", by decide⟩, Resource.not_names_of_ofPath? ?_⟩
  intro resource h
  rw [hfound] at h
  cases h

/-- Not every path that names nothing is answered with the reason: this one is met in silence. -/
theorem silence_behind_slash :
    Resource.Unnamed slashRequest.path ∧ slashRequest.method = .get ∧
      ∃ reply, keeper.respond slashRequest = .done reply ∧
        reply.body ≠ .json (.object [("error", .string "API route not found")]) := by
  have hpath : slashRequest.path = "/api/" := by decide
  have hroute := keeper.route_of_unnamed unnamed_slashRequest nofun
  rw [if_pos hpath] at hroute
  refine ⟨unnamed_slashRequest, rfl, keeper.finish slashRequest (.bare .notFound), ?_, ?_⟩
  · unfold respond
    rw [hroute]
    rfl
  · rw [finish_body]
    nofun

end Server
end Api
end WalletLedger
