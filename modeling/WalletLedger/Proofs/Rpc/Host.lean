import WalletLedger.Engine.Snapshot
import WalletLedger.Proofs.Rpc.Batch
import WalletLedger.Proofs.Rpc.Message

/-!
# A server for a snapshot

The other side of the exchanges when the engine is a server that answers every call from a
snapshot.  It reads requests from their bodies and writes results in the form of the
ledger entries.  It may arrange the items of a batch as it likes, and it may turn batches
of labels down.
-/

namespace WalletLedger
namespace Rpc

open Json (Codec Plain)

structure Host (π : Type) where
  snapshot : Snapshot
  status : Http.Status
  /-- The items of a batch reply in the order in which they are sent. -/
  arrange : π → List Json → List Json
  arrange_perm : ∀ p items, (arrange p items).Perm items
  acceptsLabels : π → Bool
  /-- What comes back for a batch of labels that is not accepted. -/
  refusal : π → String → Delivery
  refusal_unreadable : ∀ p start calls, calls ≠ [] →
    ∃ e, readBatch start calls.length (refusal p (batchBody (requestsFrom start calls))) =
      .error e
  /-- How an exchange changes the server. -/
  next : Post → π → π

namespace Host

/-!
# Answers
-/

def noSuchMethod : Json :=
  .object [("code", .negative (-32601)), ("message", .string "Method not found")]

def badParams : Json :=
  .object [("code", .negative (-32602)), ("message", .string "Invalid params")]

def notJson : Json :=
  .object [("code", .negative (-32700)), ("message", .string "Parse error")]

def readParam {α : Type} (c : Codec α) (v : Json) : Except Json α :=
  (c.decodeValue v).mapError fun _ => badParams

def windowOf : List Json → Except Json HeightWindow
  | [minHeight, maxHeight] => do
      return ⟨← readParam .uint64 minHeight, ← readParam .uint64 maxHeight⟩
  | _ => .error badParams

def indexOf : List Json → Except Json SubaddressIndex
  | [major, minor] => do return ⟨← readParam .uint32 major, ← readParam .uint32 minor⟩
  | _ => .error badParams

def destinationOf : List Json → Except Json Destination
  | destination :: _ => readParam Destination.codec destination
  | [] => .error badParams

/-- The label of the last entry for a subaddress, empty when there is none. -/
def lastLabel (entries : List LabelEntry) (index : SubaddressIndex) : String :=
  match (entries.filter fun e => e.index = index).getLast? with
  | some e => e.label
  | none => ""

variable {π : Type} (h : Host π)

def answer (call : Call) : Except Json Json :=
  let s := h.snapshot
  if call.method = "get_height" then
    .ok (Result.height.toJson s.height)
  else if call.method = "get_network_type" then
    .ok (Result.network.toJson s.network)
  else if call.method = "get_payments" then
    (windowOf call.params).map fun w => (Result.payments incomingCodec).toJson
      (s.incoming.filter fun (_, p) => w.minHeight < p.blockHeight ∧ p.blockHeight ≤ w.maxHeight)
  else if call.method = "get_payments_out" then
    (windowOf call.params).map fun w => (Result.transfers outgoingCodec).toJson
      (s.outgoing.filter fun (_, t) => w.minHeight < t.blockHeight ∧ t.blockHeight ≤ w.maxHeight)
  else if call.method = "get_unconfirmed_payments_out" then
    .ok ((Result.transfers pendingCodec).toJson s.pendingOutgoing)
  else if call.method = "get_unconfirmed_payments" then
    .ok ((Result.payments poolCodec).toJson s.pool)
  else if call.method = "get_subaddress_label" then
    (indexOf call.params).map fun index => Result.label.toJson (lastLabel s.labels index)
  else if call.method = "get_destination_address" then
    (destinationOf call.params).map fun d => Result.address.toJson (d.original.getD "")
  else
    .error noSuchMethod

/-!
# Exchanges
-/

def asked (request : Json) : Json × Call :=
  (request.member "id",
    { method := match request.member "method" with
        | .string method => method
        | _ => ""
      params := match request.member "params" with
        | .array params => params
        | _ => [] })

def respond (request : Json) : Json :=
  responseTo (asked request).1 (h.answer (asked request).2)

def isLabel (request : Json) : Bool :=
  (asked request).2.method == "get_subaddress_label"

def deliver (p : π) (body : String) : Delivery :=
  match Json.parse body with
  | .ok (.array requests) =>
      if !h.acceptsLabels p && requests.all isLabel then h.refusal p body
      else .replied h.status (Json.array (h.arrange p (requests.map h.respond))).render
  | .ok request => .replied h.status (h.respond request).render
  | .error _ => .replied h.status (responseTo .null (.error notJson)).render

def peer : Peer π := fun post p => (h.deliver p post.body, h.next post p)

/-!
# Requests as they arrive
-/

def arrived (call : Call) : Call :=
  { call with params := call.params.map Json.sorted }

theorem asked_request (r : Request) :
    asked r.toJson.sorted = (.unsigned r.id, arrived r.call) := by
  unfold asked arrived
  rw [Request.member_id, Request.member_method, Request.member_params]

/-- What a client makes of the answer to a call. -/
def settled (call : Call) : Except Json Json :=
  match h.answer (arrived call) with
  | .ok result => .ok result.sorted
  | .error error => .error error.sorted

def heard (call : Call) : Except CoreError Json :=
  (h.settled call).mapError errorOf

def resultOf (call : Call) : Json :=
  match h.answer (arrived call) with
  | .ok result => result
  | .error _ => .null

/-- A call of plain parameters has a plain result; ten levels are enough for all of them. -/
structure Answers (call : Call) : Prop where
  plain_params : ∀ v ∈ call.params, Plain 10 v
  plain_result : Plain 10 (h.resultOf call)
  answer : h.answer (arrived call) = .ok (h.resultOf call)

variable {h}

theorem Answers.heard {call : Call} (hcall : h.Answers call) :
    h.heard call = .ok (h.resultOf call).sorted := by
  unfold Host.heard settled
  rw [hcall.answer]
  rfl

theorem deliver_single {call : Call} (hcall : h.Answers call) (id : UInt64) (p : π) :
    h.deliver p (Request.body ⟨id, call⟩) =
      .replied h.status (responseTo (.unsigned id) (.ok (h.resultOf call))).render := by
  have hparse := Request.parse_body (r := ⟨id, call⟩) hcall.plain_params (by decide)
  have hasked : asked (Request.toJson ⟨id, call⟩).sorted = (.unsigned id, arrived call) :=
    asked_request ⟨id, call⟩
  have hrespond : h.respond (Request.toJson ⟨id, call⟩).sorted =
      responseTo (.unsigned id) (.ok (h.resultOf call)) := by
    unfold respond
    rw [hasked, hcall.answer]
  rw [← hrespond]
  unfold deliver
  rw [hparse]
  rfl

def resultsFrom (h : Host π) (start : UInt64) (calls : List Call) : List (UInt64 × Json) :=
  (requestsFrom start calls).map fun r => (r.id, h.resultOf r.call)

theorem call_mem_of_requestsFrom {start : UInt64} {calls : List Call} {r : Request}
    (hr : r ∈ requestsFrom start calls) : r.call ∈ calls := by
  rw [← calls_of_requestsFrom start calls]
  exact List.mem_map_of_mem hr

theorem deliver_batch {calls : List Call} (hcalls : ∀ call ∈ calls, h.Answers call)
    (start : UInt64) (p : π) :
    (h.deliver p (batchBody (requestsFrom start calls)) =
        h.refusal p (batchBody (requestsFrom start calls)) ∧
      ∀ call ∈ calls, call.method = "get_subaddress_label") ∨
    h.deliver p (batchBody (requestsFrom start calls)) =
      .replied h.status (Json.array (h.arrange p ((h.resultsFrom start calls).map fun q =>
        responseTo (.unsigned q.1) (.ok q.2)))).render := by
  have hparse := @parse_batchBody 10 (requestsFrom start calls)
    (fun r hr => (hcalls _ (call_mem_of_requestsFrom hr)).plain_params) (by decide)
  have hresponses : ((requestsFrom start calls).map fun r => r.toJson.sorted).map h.respond =
      (h.resultsFrom start calls).map fun q => responseTo (.unsigned q.1) (.ok q.2) := by
    rw [resultsFrom, List.map_map, List.map_map]
    apply List.map_congr_left
    intro r hr
    have hanswer := (hcalls _ (call_mem_of_requestsFrom hr)).answer
    change responseTo (asked r.toJson.sorted).1 (h.answer (asked r.toJson.sorted).2) = _
    rw [asked_request, hanswer]
    rfl
  rw [← hresponses]
  unfold deliver
  rw [hparse]
  simp only
  split
  · next hrefused =>
      refine .inl ⟨rfl, ?_⟩
      intro call hcall
      rw [← calls_of_requestsFrom start calls] at hcall
      rcases List.mem_map.mp hcall with ⟨r, hr, heq⟩
      have hall := List.all_eq_true.mp (Bool.and_eq_true_iff.mp hrefused).2
      have hlabel := hall _ (List.mem_map_of_mem (f := fun r => r.toJson.sorted) hr)
      unfold isLabel at hlabel
      rw [asked_request] at hlabel
      rw [← heq]
      exact eq_of_beq hlabel
  · exact .inr rfl

/-!
# What a client gets
-/

theorem carriesItems_of_perm {start : UInt64} {calls : List Call}
    (hcalls : ∀ call ∈ calls, h.Answers call) {items : List Json}
    (hperm : items.Perm ((h.resultsFrom start calls).map fun q =>
      responseTo (.unsigned q.1) (.ok q.2))) :
    CarriesItems h.heard start calls (.replied h.status (Json.array items).render) := by
  have hback := congrFun (congrFun (List.eq_map_comp_perm
    fun q : UInt64 × Json => responseTo (.unsigned q.1) (.ok q.2)) items)
    (h.resultsFrom start calls)
  rcases hback.mpr hperm with ⟨results, hitems, hresults⟩
  have hplain : ∀ q ∈ results, Plain 10 q.2 := by
    intro q hq
    rcases List.mem_map.mp (hresults.mem_iff.mp hq) with ⟨r, hr, heq⟩
    exact heq ▸ (hcalls _ (call_mem_of_requestsFrom hr)).plain_result
  have hdecode := decode_responses hplain (by decide)
  refine ⟨results.map fun q => ⟨.unsigned q.1, nonNull q.2.sorted, none⟩,
    results.map fun q => (q.1, ⟨.unsigned q.1, nonNull q.2.sorted, none⟩), ?_, ?_, ?_⟩
  · unfold decodeReply
    rw [hitems]
    simp only [hdecode]
  · unfold identified
    rw [List.mapM_map]
    exact Results.mapM_eq_ok_map fun _ _ => rfl
  · have hsaid : (h.resultsFrom start calls).map
        (fun q => (q.1, (Except.ok q.2.sorted : Except CoreError Json))) =
        (requestsFrom start calls).map fun r => (r.id, h.heard r.call) := by
      rw [resultsFrom, List.map_map]
      apply List.map_congr_left
      intro r hr
      exact congrArg (Prod.mk r.id) (hcalls _ (call_mem_of_requestsFrom hr)).heard.symm
    rw [← hsaid, List.map_map]
    refine List.Perm.trans (.of_eq (List.map_congr_left fun q _ => ?_)) (hresults.map _)
    change (q.1, Except.ok ((nonNull q.2.sorted).getD .null)) = _
    rw [getD_nonNull]

variable {a : Access π}

theorem reply_of_peer (ha : a.peer = h.peer) (body : String) (p : π) :
    a.reply body p = h.deliver p body := by
  unfold Access.reply
  rw [ha]
  rfl

theorem answersAlone (ha : a.peer = h.peer) : a.AnswersAlone h.Answers h.heard := by
  intro call hcall id p
  rw [reply_of_peer ha, deliver_single hcall, hcall.heard]
  exact readSingle_responseTo hcall.plain_result (by decide) id h.status

/-- A batch is answered unless it is one of labels; then it may fail instead. -/
theorem carriesItems_or_refused (ha : a.peer = h.peer) {calls : List Call} (hne : calls ≠ [])
    (hcalls : ∀ call ∈ calls, h.Answers call) (start : UInt64) (p : π) :
    CarriesItems h.heard start calls (a.reply (batchBody (requestsFrom start calls)) p) ∨
      (∃ e, readBatch start calls.length (a.reply (batchBody (requestsFrom start calls)) p) =
        .error e) ∧ ∀ call ∈ calls, call.method = "get_subaddress_label" := by
  rw [reply_of_peer ha]
  rcases deliver_batch hcalls start p with ⟨hrefused, hlabels⟩ | hdelivered
  · rw [hrefused]
    exact .inr ⟨h.refusal_unreadable p start calls hne, hlabels⟩
  · rw [hdelivered]
    exact .inl (carriesItems_of_perm hcalls (h.arrange_perm _ _))

end Host
end Rpc
end WalletLedger
