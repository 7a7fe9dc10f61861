import WalletLedger.Proofs.Rpc.Batch

/-!
# Labels, together or one by one

Labels are asked for in batches, and one by one after a batch that failed.  A batch that was
answered may still hold something that is no label; then there is no second attempt.  Either
way the answer is that of asking for one label after another.
-/

namespace WalletLedger
namespace Rpc

/-!
# The peer

`told` is what a peer makes of the parameters of a label, be it a result, an error or a body
that says nothing.
-/

def Call.IsLabel (call : Call) : Prop :=
  ∃ index, call = .label index

/-- Calls on their own are told what the parameters call for, and so are batches that do not
fail.  How and when a batch fails is up to the peer. -/
structure Access.GivesLabels {π : Type} (a : Access π)
    (told : List Json → Except CoreError Json) : Prop where
  alone : a.AnswersAlone Call.IsLabel fun call => told call.params
  together : ∀ (indices : List SubaddressIndex) (c : Client π) (raws : List Json),
    (a.batches (indices.map Call.label) c).answer = .ok raws →
      List.Forall₂ (fun index raw => told (Call.label index).params = .ok raw) indices raws

def labelGiven (told : List Json → Except CoreError Json) (index : SubaddressIndex) :
    Except CoreError String :=
  told (Call.label index).params >>= decodeResult Result.label "get_subaddress_label"

/-- A peer that answers every batch of labels or lets it fail as a whole gives labels. -/
theorem Access.givesLabels_of_answers {π : Type} {a : Access π}
    {told : List Json → Except CoreError Json} (hsize : a.chunkSize < 2 ^ 64)
    (halone : a.AnswersAlone Call.IsLabel fun call => told call.params)
    (hfails : a.AnswersOrFails Call.IsLabel fun call => told call.params) :
    a.GivesLabels told where
  alone := halone
  together := by
    intro indices c raws hok
    have hkind : ∀ call ∈ indices.map Call.label, call.IsLabel := by
      intro call hcall
      rcases List.mem_map.mp hcall with ⟨index, _, rfl⟩
      exact ⟨index, rfl⟩
    have hraws := Access.batches_of_ok hfails hsize hkind hok
    exact List.forall₂_map_left_iff.mp (Results.mapM_eq_ok_iff.mp hraws)

/-- Where everything was told, reading what was told is all that can still fail. -/
theorem mapM_labelGiven {told : List Json → Except CoreError Json}
    {indices : List SubaddressIndex} {raws : List Json}
    (h : List.Forall₂ (fun index raw => told (Call.label index).params = .ok raw) indices raws) :
    indices.mapM (labelGiven told) =
      raws.mapM (decodeResult Result.label "get_subaddress_label") := by
  induction h with
  | nil => rfl
  | cons hraw _ ih =>
      rw [List.mapM_cons, List.mapM_cons, ih]
      unfold labelGiven
      rw [hraw]
      rfl

/-!
# The two ways
-/

namespace Access

variable {π : Type} {a : Access π} {told : List Json → Except CoreError Json}
  {P : AddressCache → Prop}

theorem labels_of_ok {indices : List SubaddressIndex} {c : Client π} {raws : List Json}
    (h : (a.batches (indices.map Call.label) c).answer = .ok raws) :
    (a.labels indices c).answer =
        raws.mapM (decodeResult Result.label "get_subaddress_label") ∧
      (a.labels indices c).state = (a.batches (indices.map Call.label) c).state := by
  unfold labels
  simp only [h, and_self]

theorem labels_of_error {indices : List SubaddressIndex} {c : Client π} {e : CoreError}
    (h : (a.batches (indices.map Call.label) c).answer = .error e) :
    let made := a.batches (indices.map Call.label) c
    (a.labels indices c).answer = (labelsInTurn a.label indices made.state).answer ∧
      (a.labels indices c).state = (labelsInTurn a.label indices made.state).state := by
  unfold labels
  simp only [h, and_self]

theorem label_yields (h : a.GivesLabels told) (index : SubaddressIndex) :
    (a.label index).Yields (Client.Caches P) (labelGiven told index) :=
  ask_yields h.alone ⟨index, rfl⟩ Result.label

theorem labelsInTurn_yields (h : a.GivesLabels told) (indices : List SubaddressIndex) :
    (labelsInTurn a.label indices).Yields (Client.Caches P) (indices.mapM (labelGiven told)) :=
  Act.Yields.inTurn fun index _ => label_yields h index

theorem labels_yields (h : a.GivesLabels told) (indices : List SubaddressIndex) :
    (a.labels indices).Yields (Client.Caches P) (indices.mapM (labelGiven told)) := by
  intro c hc
  have hkept := a.batches_keeps (indices.map Call.label) c hc
  cases hmade : (a.batches (indices.map Call.label) c).answer with
  | ok raws =>
      rw [(labels_of_ok hmade).1, (labels_of_ok hmade).2]
      exact ⟨(mapM_labelGiven (h.together indices c raws hmade)).symm, hkept⟩
  | error e =>
      rw [(labels_of_error hmade).1, (labels_of_error hmade).2]
      exact labelsInTurn_yields h indices _ hkept

end Access

/-- Asking for labels together gives the list or the error that asking in turn gives. -/
theorem labels_as_in_turn {π : Type} {a : Access π} {told : List Json → Except CoreError Json}
    (h : a.GivesLabels told) (indices : List SubaddressIndex) (c c' : Client π) :
    (a.engine.labels indices c).answer =
      (a.engine.lookingUpInTurn.labels indices c').answer := by
  have htogether : (a.labels indices).Yields (Client.Caches fun _ => True) _ :=
    Access.labels_yields h indices
  have hturn : (labelsInTurn a.label indices).Yields (Client.Caches fun _ => True) _ :=
    Access.labelsInTurn_yields h indices
  calc (a.engine.labels indices c).answer
      = indices.mapM (labelGiven told) := (htogether c trivial).1
    _ = (a.engine.lookingUpInTurn.labels indices c').answer := (hturn c' trivial).1.symm

/-- A reply that is the same error for everybody and no list of anything. -/
def lockedOut : Delivery :=
  .replied .ok "\x7b\"error\":\x7b\"code\":-1,\"message\":\"wallet is locked\"\x7d\x7d"

def locked : Access Unit where
  peer _ p := (lockedOut, p)
  credentials := none
  chunkSize := 2
  chunkSize_pos := Nat.two_pos

theorem labels_as_in_turn_locked :
    locked.GivesLabels (fun _ => .error (.engine (.server (-1) "wallet is locked"))) ∧
      ∀ c c' : Client Unit,
        (locked.engine.labels [⟨0, 1⟩, ⟨0, 1⟩, ⟨2, 0⟩] c).answer =
            (locked.engine.lookingUpInTurn.labels [⟨0, 1⟩, ⟨0, 1⟩, ⟨2, 0⟩] c').answer ∧
          (locked.engine.labels [⟨0, 1⟩, ⟨0, 1⟩, ⟨2, 0⟩] c).answer =
            .error (.engine (.server (-1) "wallet is locked")) := by
  have halone : readSingle lockedOut = .error (.engine (.server (-1) "wallet is locked")) := by
    cbv
  have htogether : decodeReply (.list Response.codec) "JSON-RPC batch response" lockedOut =
      .error (.engine (.invalidResponse (.undecodable "JSON-RPC batch response"
        (.kind .map "a sequence") .ok))) := by
    cbv
  have hgives : locked.GivesLabels
      (fun _ => .error (.engine (.server (-1) "wallet is locked"))) := by
    apply Access.givesLabels_of_answers (by decide)
    · intro call _ id p
      exact halone
    · intro calls _ _ start p
      right
      unfold readBatch
      change ∃ e, (decodeReply (.list Response.codec) "JSON-RPC batch response" lockedOut >>=
        fun items => settle items start calls.length) = .error e
      rw [htogether]
      exact ⟨_, rfl⟩
  refine ⟨hgives, fun c c' => ⟨labels_as_in_turn hgives _ c c', ?_⟩⟩
  have hyields : (locked.labels [⟨0, 1⟩, ⟨0, 1⟩, ⟨2, 0⟩]).Yields (Client.Caches fun _ => True) _ :=
    Access.labels_yields hgives _
  exact (hyields c trivial).1

end Rpc
end WalletLedger
