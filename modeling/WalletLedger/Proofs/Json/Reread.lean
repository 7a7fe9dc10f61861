import WalletLedger.Proofs.Json.Rendered

/-!
# Values that were written and read

Reading the text of a value gives the value back, but for fractions: such a one may be read
as another one.  Nothing is lost of plain values, those without signs and fractions, which
is all that a client and an engine send each other.
-/

namespace WalletLedger
namespace Json

/-!
# Values that a text can have
-/

/-- A value without signs and fractions, with at most so many arrays and objects inside it. -/
inductive Plain : Nat → Json → Prop where
  | null (d : Nat) : Plain d .null
  | bool (d : Nat) (b : Bool) : Plain d (.bool b)
  | unsigned (d : Nat) (n : UInt64) : Plain d (.unsigned n)
  | string (d : Nat) (s : String) : Plain d (.string s)
  | array {d : Nat} {items : List Json} :
      (∀ v ∈ items, Plain d v) → Plain (d + 1) (.array items)
  | object {d : Nat} {members : List (String × Json)} :
      (∀ m ∈ members, Plain d m.2) → Plain (d + 1) (.object members)

def IsNumber : Json → Prop
  | .unsigned _ => True
  | .negative n => n < 0 ∧ n.natAbs ≤ 2 ^ 63
  | .binary x => x.magnitude.Canonical
  | _ => False

/-- A value that a text can have, with at most so many arrays and objects inside it. -/
inductive Legible : Nat → Json → Prop where
  | null (d : Nat) : Legible d .null
  | bool (d : Nat) (b : Bool) : Legible d (.bool b)
  | number (d : Nat) {v : Json} : v.IsNumber → Legible d v
  | string (d : Nat) (s : String) : Legible d (.string s)
  | array {d : Nat} {items : List Json} :
      (∀ v ∈ items, Legible d v) → Legible (d + 1) (.array items)
  | object {d : Nat} {members : List (String × Json)} :
      (∀ m ∈ members, Legible d m.2) → Legible (d + 1) (.object members)

theorem Legible.of_array {d : Nat} {items : List Json} (h : Legible d (.array items)) :
    ∃ k, d = k + 1 ∧ ∀ v ∈ items, Legible k v := by
  cases h with
  | number _ hnumber => exact absurd hnumber id
  | array hitems => exact ⟨_, rfl, hitems⟩

theorem Legible.of_object {d : Nat} {members : List (String × Json)}
    (h : Legible d (.object members)) : ∃ k, d = k + 1 ∧ ∀ m ∈ members, Legible k m.2 := by
  cases h with
  | number _ hnumber => exact absurd hnumber id
  | object hmembers => exact ⟨_, rfl, hmembers⟩

theorem Plain.legible {d : Nat} {v : Json} (h : Plain d v) : Legible d v := by
  induction h with
  | null d => exact .null d
  | bool d b => exact .bool d b
  | unsigned d n => exact .number d trivial
  | string d s => exact .string d s
  | array _ ih => exact .array ih
  | object _ ih => exact .object ih

/-!
# What is read again
-/

mutual

/-- The value that is read where a value was written. -/
def reread : Json → Json
  | .binary x => .binary x.reread
  | .array items => .array (rereadItems items)
  | .object members => .object (rereadMembers members)
  | v => v

def rereadItems : List Json → List Json
  | [] => []
  | v :: rest => reread v :: rereadItems rest

def rereadMembers : List (String × Json) → List (String × Json)
  | [] => []
  | (key, v) :: rest => (key, reread v) :: rereadMembers rest

end

theorem rereadItems_eq_map (items : List Json) : rereadItems items = items.map reread := by
  induction items with
  | nil => rfl
  | cons v rest ih => rw [rereadItems, ih, List.map_cons]

theorem rereadMembers_eq_map (members : List (String × Json)) :
    rereadMembers members = members.map fun (key, v) => (key, v.reread) := by
  induction members with
  | nil => rfl
  | cons m rest ih => rw [rereadMembers, ih, List.map_cons]

theorem Plain.reread_eq {d : Nat} {v : Json} (h : Plain d v) : v.reread = v := by
  induction h with
  | null => rfl
  | bool => rfl
  | unsigned => rfl
  | string => rfl
  | array _ ih =>
      rw [reread, rereadItems_eq_map]
      exact congrArg Json.array ((List.map_congr_left ih).trans (List.map_id _))
  | object _ ih =>
      rw [reread, rereadMembers_eq_map]
      refine congrArg Json.object ((List.map_congr_left ?_).trans (List.map_id _))
      exact fun m hm => congrArg (Prod.mk m.1) (ih m hm)

/-!
# Reading
-/

theorem value_number {v : Json} (h : v.IsNumber) :
    ∃ number, v.numeral? = some number ∧ number.1.digits ≤ wordLimit ∧
      number.1.value number.2 = .ok v.reread := by
  cases v with
  | unsigned n =>
      refine ⟨_, rfl, ?_, ?_⟩
      · rw [Numeral.digits_ofNat]
        exact Nat.le_pred_of_lt n.toNat_lt
      · change (Numeral.ofNat n.toNat).value false = _
        rw [Numeral.value_ofNat, wholeNumber, if_neg Bool.false_ne_true, UInt64.ofNat_toNat]
        rfl
  | negative n =>
      rcases h with ⟨hlt, hle⟩
      have hpos : 0 < n.natAbs := Int.natAbs_pos.mpr (Int.ne_of_lt hlt)
      have hsame : -(Int.ofNat n.natAbs) = n := by
        rw [Int.ofNat_eq_natCast]
        omega
      refine ⟨_, rfl, ?_, ?_⟩
      · rw [Numeral.digits_ofNat]
        exact Nat.le_trans hle (by decide)
      · change (Numeral.ofNat n.natAbs).value (decide (n < 0)) = _
        rw [Numeral.value_ofNat, decide_eq_true hlt, wholeNumber, if_pos rfl,
          if_pos ⟨hpos, hle⟩, hsame]
        rfl
  | binary x =>
      refine ⟨_, rfl, ?_, x.value_numeral h⟩
      exact Nat.le_pred_of_lt (Number.Binary64.exists_value h).1
  | _ => exact absurd h id

theorem read_number {v : Json} (h : v.IsNumber) {rest : List Char} (hrest : EndsValue rest) :
    ∃ text, shapeOf v rest = .number text ∧ readNumber text = .ok (v.reread, rest) := by
  rcases value_number h with ⟨number, hnumber, hlimit, hvalue⟩
  have hread := number.1.readNumber_signed (wellFormed_numeral? hnumber) hrest number.2 hlimit
  rw [hvalue] at hread
  exact ⟨_, (renderAppend_number hnumber rest).2, hread⟩

theorem enter_of_lt {d depth : Nat} (h : d + 1 < depth) :
    Outline.enter depth = .ok (depth - 1) := by
  unfold Outline.enter
  rw [if_neg (by omega)]

theorem readItems_shapesOf {depth : Nat} {items : List Json}
    (h : ∀ v ∈ items, ∀ rest, EndsValue rest → (shapeOf v rest).read depth = .ok v.reread)
    {rest : List Char} (hrest : EndsValue rest) :
    Outline.readItems depth (shapesOf items rest) = .ok (rereadItems items) := by
  induction items with
  | nil => rfl
  | cons v vs ih =>
      rcases shapesOf_cons v vs hrest with ⟨next, hnext, hshapes⟩
      rw [hshapes, Outline.readItems, h v List.mem_cons_self next hnext,
        ih fun w hw => h w (List.mem_cons_of_mem v hw)]
      rfl

theorem readMembers_memberShapes {depth : Nat} {members : List (String × Json)}
    (h : ∀ m ∈ members, ∀ rest, EndsValue rest → (shapeOf m.2 rest).read depth = .ok m.2.reread)
    {rest : List Char} (hrest : EndsValue rest) :
    Outline.readMembers depth (memberShapes members rest) = .ok (rereadMembers members) := by
  induction members with
  | nil => rfl
  | cons m ms ih =>
      rcases m with ⟨key, v⟩
      rcases memberShapes_cons key v ms hrest with ⟨text, next, hnext, hshapes⟩
      have hv : (shapeOf v next).read depth = .ok v.reread :=
        h (key, v) List.mem_cons_self next hnext
      rw [hshapes, Outline.readMembers, readString_escapeAppend]
      change (do
        let value ← (shapeOf v next).read depth
        let values ← Outline.readMembers depth (memberShapes ms rest)
        Except.ok ((String.ofList key.toList, value) :: values)) = _
      rw [hv, ih fun w hw => h w (List.mem_cons_of_mem _ hw), String.ofList_toList]
      rfl

/-- Wherever a value ends, its outline is read as what is read again of the value. -/
theorem read_shapeOf {d : Nat} {v : Json} (h : Legible d v) {depth : Nat} (hdepth : d < depth)
    {rest : List Char} (hrest : EndsValue rest) : (shapeOf v rest).read depth = .ok v.reread := by
  induction h generalizing depth rest with
  | null => rfl
  | bool => rfl
  | number _ hv =>
      rcases read_number hv hrest with ⟨text, hshape, hread⟩
      rw [hshape, Outline.read, hread]
      rfl
  | string _ s =>
      rw [shapeOf, Outline.read, readString_escapeAppend]
      change Except.ok (Json.string (String.ofList s.toList)) = _
      rw [String.ofList_toList]
      rfl
  | array _ ih =>
      have hinside := Nat.lt_sub_of_add_lt hdepth
      have hitems := readItems_shapesOf (fun v hv _ => ih v hv hinside) (endsValue_bracket rest)
      rw [shapeOf, Outline.read, enter_of_lt hdepth]
      change (do
        let values ← Outline.readItems (depth - 1) _
        Except.ok (Json.array values)) = _
      rw [hitems]
      rfl
  | object _ ih =>
      have hinside := Nat.lt_sub_of_add_lt hdepth
      have hmembers := readMembers_memberShapes (fun m hm _ => ih m hm hinside)
        (endsValue_brace rest)
      rw [shapeOf, Outline.read, enter_of_lt hdepth]
      change (do
        let values ← Outline.readMembers (depth - 1) _
        Except.ok (Json.object values)) = _
      rw [hmembers]
      rfl

def Reads (depth : Nat) (v : Json) : Prop :=
  ∀ rest, EndsValue rest → (shapeOf v rest).read depth = .ok v

theorem Plain.reads {d : Nat} {v : Json} (h : Plain d v) {depth : Nat} (hdepth : d < depth) :
    Reads depth v := by
  intro rest hrest
  rw [read_shapeOf h.legible hdepth hrest, h.reread_eq]

/-- A plain value survives writing and reading, but for the order of its members. -/
theorem parse_render {d : Nat} {v : Json} (h : Plain d v) (hdepth : d < Outline.depthLimit) :
    parse v.render = .ok v.sorted := by
  unfold parse
  rw [outline_render]
  change (do
    let value ← (shapeOf v []).read Outline.depthLimit
    endOfText (some [])
    Except.ok value.sorted) = _
  rw [h.reads hdepth [] trivial]
  rfl

end Json
end WalletLedger
