import WalletLedger.Proofs.Json.RoundTrip
import WalletLedger.Rpc.Exchange

/-!
# Messages that were written

A server finds the id, the method and the parameters of a request in its body, and the
client finds the result in the body of the reply.
-/

namespace WalletLedger

open Json (Plain shapeOf EndsValue Fields Field)

namespace Json

theorem find?_of_mem {members : List (String × Json)} (h : (members.map Prod.fst).Nodup)
    {key : String} {v : Json} (hmem : (key, v) ∈ members) :
    (members.find? fun m => m.1 == key) = some (key, v) := by
  induction members with
  | nil => cases hmem
  | cons m rest ih =>
      rw [List.map_cons, List.nodup_cons] at h
      rcases List.mem_cons.mp hmem with rfl | hmem
      · exact List.find?_cons_of_pos (beq_self_eq_true key)
      · rw [List.find?_cons_of_neg]
        · exact ih h.2 hmem
        · intro heq
          exact h.1 (eq_of_beq heq ▸ List.mem_map_of_mem hmem)

theorem member_sorted {members : List (String × Json)} (h : (members.map Prod.fst).Nodup)
    {key : String} {v : Json} (hmem : (key, v) ∈ members) :
    (Json.object members).sorted.member key = v.sorted := by
  have hsorted := (mem_sorted_members h).mpr ⟨v, hmem, rfl⟩
  have hnodup := nodup_of_ascending (ascending_sortMembers (sortedMembers members))
  rw [sorted, member, find?_of_mem hnodup hsorted]
  rfl

end Json

namespace Rpc

/-!
# Requests
-/

namespace Request

variable {d : Nat} {r : Request}

theorem plain_toJson (h : ∀ v ∈ r.call.params, Plain d v) : Plain (d + 2) r.toJson := by
  refine .object fun m hm => ?_
  rcases List.mem_cons.mp hm with rfl | hm
  · exact .string _ _
  rcases List.mem_cons.mp hm with rfl | hm
  · exact .unsigned _ _
  rcases List.mem_cons.mp hm with rfl | hm
  · exact .string _ _
  rcases List.mem_singleton.mp hm with rfl
  exact .array h

theorem parse_body (h : ∀ v ∈ r.call.params, Plain d v) (hdepth : d + 2 < 128) :
    Json.parse r.body = .ok r.toJson.sorted :=
  Json.parse_render (plain_toJson h) hdepth

theorem member_id (r : Request) : r.toJson.sorted.member "id" = .unsigned r.id :=
  Json.member_sorted (by simp) (List.mem_cons_of_mem _ List.mem_cons_self)

theorem member_method (r : Request) :
    r.toJson.sorted.member "method" = .string r.call.method :=
  Json.member_sorted (by simp)
    (List.mem_cons_of_mem _ (List.mem_cons_of_mem _ List.mem_cons_self))

theorem member_params (r : Request) :
    r.toJson.sorted.member "params" = .array (r.call.params.map Json.sorted) := by
  rw [← Json.sortedItems_eq_map]
  exact Json.member_sorted (by simp) (v := .array r.call.params)
    (List.mem_cons_of_mem _ (List.mem_cons_of_mem _ (List.mem_cons_of_mem _ List.mem_cons_self)))

end Request

theorem parse_batchBody {d : Nat} {requests : List Request}
    (h : ∀ r ∈ requests, ∀ v ∈ r.call.params, Plain d v) (hdepth : d + 3 < 128) :
    Json.parse (batchBody requests) =
      .ok (.array (requests.map fun r => r.toJson.sorted)) := by
  have hplain : Plain (d + 3) (.array (requests.map Request.toJson)) := by
    refine .array fun v hv => ?_
    rcases List.mem_map.mp hv with ⟨r, hr, heq⟩
    exact heq ▸ Request.plain_toJson (h r hr)
  rw [batchBody, Json.parse_render hplain hdepth, Json.sorted, Json.sortedItems_eq_map,
    List.map_map]
  rfl

/-!
# Responses
-/

def responseTo (id : Json) (answer : Except Json Json) : Json :=
  match answer with
  | .ok result => .object [("jsonrpc", .string "2.0"), ("id", id), ("result", result)]
  | .error error => .object [("jsonrpc", .string "2.0"), ("id", id), ("error", error)]

def nonNull : Json → Option Json
  | .null => none
  | v => some v

theorem getD_nonNull (v : Json) : (nonNull v).getD .null = v := by
  cases v <;> rfl

theorem optional_json_read {d : Nat} {v : Json} (h : Plain d v) {depth : Nat} (hdepth : d < depth)
    {rest : List Char} (hrest : EndsValue rest) :
    Json.Codec.json.optional.ofOutline depth (shapeOf v rest) = .ok (nonNull v.sorted) := by
  have hread := h.reads hdepth rest hrest
  have hjson : Json.Codec.json.ofOutline depth (shapeOf v rest) = .ok v.sorted := by
    change (Json.orFault ((shapeOf v rest).read depth)).map Json.sorted = _
    rw [hread]
    rfl
  cases h with
  | null => rfl
  | bool => rfl
  | _ =>
      change (Json.Codec.json.ofOutline depth _).map some = _
      rw [hjson]
      rfl

def responseFields : Fields [Json, Option Json, Option Json] :=
  .cons (.orElse "id" .json .null) (.cons (.perhaps "result" .json)
    (.cons (.perhaps "error" .json) .nil))

def resultMembers (id : UInt64) (result : Json) : List (String × Json) :=
  [("jsonrpc", .string "2.0"), ("id", .unsigned id), ("result", result)]

def resultRow (id : UInt64) (result : Json) : Json.Row [Json, Option Json, Option Json] :=
  (.unsigned id, nonNull result.sorted, none, ())

theorem resultMembers_accepted {d : Nat} {result : Json} (h : Plain d result) (id : UInt64)
    {depth : Nat} (hdepth : d < depth) {m : String × Json} (hm : m ∈ resultMembers id result)
    {rest : List Char} (hrest : EndsValue rest) :
    responseFields.Accepts m.1 (fun c => c.ofOutline depth (shapeOf m.2 rest))
      (resultRow id result) := by
  have hresult : "result" ≠ "id" := by decide
  have herror : "error" ≠ "id" ∧ "error" ≠ "result" := by decide
  rcases List.mem_cons.mp hm with rfl | hm
  · exact Fields.accepts_of_not_mem (by decide) _ _
  rcases List.mem_cons.mp hm with rfl | hm
  · have hid : Json.Codec.json.ofOutline depth (shapeOf (.unsigned id) rest) =
        .ok (.unsigned id) := by
      change (Json.orFault ((shapeOf (.unsigned id) rest).read depth)).map Json.sorted = _
      rw [(Plain.unsigned d id).reads hdepth rest hrest]
      rfl
    exact ⟨fun _ => hid, fun hname => absurd hname hresult,
      fun hname => absurd hname herror.1, trivial⟩
  · rcases List.mem_singleton.mp hm with rfl
    exact ⟨fun hname => absurd hname.symm hresult, fun _ => optional_json_read h hdepth hrest,
      fun hname => absurd hname herror.2, trivial⟩

theorem ofOutline_responseTo {d : Nat} {result : Json} (h : Plain d result) (id : UInt64)
    {depth : Nat} (hdepth : d + 1 < depth) (rest : List Char) :
    Response.codec.ofOutline depth (shapeOf (responseTo (.unsigned id) (.ok result)) rest) =
      .ok ⟨.unsigned id, nonNull result.sorted, none⟩ := by
  have hinside := Nat.lt_sub_of_add_lt hdepth
  have hcarries : responseFields.CarriesText (resultRow id result) (depth - 1)
      (resultMembers id result) := by
    refine ⟨?_, fun _ hm _ hrest => resultMembers_accepted h id hinside hm hrest, ?_⟩
    · change ["jsonrpc", "id", "result"].Nodup
      decide
    · refine ⟨.inl ?_, .inl ?_, .inr (.inr rfl), trivial⟩
      · change "id" ∈ ["jsonrpc", "id", "result"]
        decide
      · change "result" ∈ ["jsonrpc", "id", "result"]
        decide
  rcases hcarries.read (by decide) (Json.endsValue_brace rest) with ⟨slots, hread, hrow⟩
  exact Json.Codec.ofOutline_record (by omega) hread hrow

theorem readSingle_responseTo {d : Nat} {result : Json} (h : Plain d result) (hdepth : d + 1 < 128)
    (id : UInt64) (status : Http.Status) :
    readSingle (.replied status (responseTo (.unsigned id) (.ok result)).render) =
      .ok result.sorted := by
  have hdecode : Response.codec.decode (responseTo (.unsigned id) (.ok result)).render =
      .ok ⟨.unsigned id, nonNull result.sorted, none⟩ := by
    rw [Json.Codec.decode_render]
    exact ofOutline_responseTo h id hdepth []
  unfold readSingle decodeReply
  simp only [hdecode]
  change Except.ok ((nonNull result.sorted).getD .null) = _
  rw [getD_nonNull]

/-!
# Batches
-/

theorem decode_responses {d : Nat} {results : List (UInt64 × Json)}
    (h : ∀ p ∈ results, Plain d p.2) (hdepth : d + 2 < 128) :
    (Json.Codec.list Response.codec).decode
        (Json.array (results.map fun p => responseTo (.unsigned p.1) (.ok p.2))).render =
      .ok (results.map fun p => ⟨.unsigned p.1, nonNull p.2.sorted, none⟩) := by
  rw [Json.Codec.decode_render]
  refine Json.Codec.ofOutline_list (by decide) (fun p hp rest _ => ?_) []
  exact ofOutline_responseTo (h p hp) p.1 (show d + 1 < 127 by omega) rest

end Rpc
end WalletLedger
