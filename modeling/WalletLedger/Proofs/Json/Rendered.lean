import WalletLedger.Json.Outline
import WalletLedger.Proofs.Json.Fractions

/-!
# Values that were written

The compact text of a value has the outline of the value, and can be passed over.
-/

namespace WalletLedger
namespace Json

/-- Induction on values, with all items of an array and all values of an object at once. -/
theorem induction {motive : Json → Prop} (null : motive .null) (bool : ∀ b, motive (.bool b))
    (unsigned : ∀ n, motive (.unsigned n)) (negative : ∀ n, motive (.negative n))
    (binary : ∀ x, motive (.binary x)) (string : ∀ s, motive (.string s))
    (array : ∀ items, (∀ v ∈ items, motive v) → motive (.array items))
    (object : ∀ members, (∀ m ∈ members, motive m.2) → motive (.object members)) (v : Json) :
    motive v :=
  @Json.rec motive (fun items => ∀ v ∈ items, motive v) (fun members => ∀ m ∈ members, motive m.2)
    (fun m => motive m.2) null bool unsigned negative binary string array object
    (fun _ h => absurd h List.not_mem_nil) (fun _ _ hv hvs => List.forall_mem_cons.mpr ⟨hv, hvs⟩)
    (fun _ h => absurd h List.not_mem_nil) (fun _ _ hm hms => List.forall_mem_cons.mpr ⟨hm, hms⟩)
    (fun _ _ hv => hv) v

/-!
# The outline of a written value
-/

mutual

/-- The outline of a value that was written in front of `rest`. -/
def shapeOf : Json → List Char → Outline
  | .null, _ => .null
  | .bool b, _ => .bool b
  | .unsigned n, rest => .number (Text.decimal n.toNat ++ rest)
  | .negative n, rest => .number (Text.decimalInt n ++ rest)
  | .binary x, rest => .number (x.render ++ rest)
  | .string s, rest => .string (escapeAppend s.toList ('"' :: rest))
  | .array items, rest => .array (shapesOf items (']' :: rest)) .closed
  | .object members, rest => .object (memberShapes members ('\x7d' :: rest)) .closed

def shapesOf : List Json → List Char → List Outline
  | [], _ => []
  | [v], rest => [shapeOf v rest]
  | v :: w :: vs, rest =>
      shapeOf v (',' :: renderItems (w :: vs) rest) :: shapesOf (w :: vs) rest

def memberShapes : List (String × Json) → List Char → List (List Char × Outline)
  | [], _ => []
  | [(key, v)], rest =>
      [(escapeAppend key.toList ('"' :: ':' :: renderAppend v rest), shapeOf v rest)]
  | (key, v) :: m :: ms, rest =>
      (escapeAppend key.toList
          ('"' :: ':' :: renderAppend v (',' :: renderMembers (m :: ms) rest)),
        shapeOf v (',' :: renderMembers (m :: ms) rest)) :: memberShapes (m :: ms) rest

end

def numeral? : Json → Option (Numeral × Bool)
  | .unsigned n => some (.ofNat n.toNat, false)
  | .negative n => some (.ofNat n.natAbs, decide (n < 0))
  | .binary x => some (x.numeral, x.negative)
  | _ => none

theorem decimalInt_append (n : Int) (rest : List Char) :
    Text.decimalInt n ++ rest = (Numeral.ofNat n.natAbs).signed (decide (n < 0)) rest := by
  cases n with
  | ofNat n => rfl
  | negSucc n =>
      rw [decide_eq_true (Int.negSucc_lt_zero n)]
      rfl

theorem wellFormed_numeral? {v : Json} {n : Numeral} {isNegative : Bool}
    (h : v.numeral? = some (n, isNegative)) : n.WellFormed := by
  cases v with
  | unsigned k =>
      cases h
      exact Numeral.wellFormed_ofNat _
  | negative k =>
      cases h
      exact Numeral.wellFormed_ofNat _
  | binary x =>
      cases h
      exact x.wellFormed_numeral
  | _ => cases h

theorem renderAppend_number {v : Json} {n : Numeral} {isNegative : Bool}
    (h : v.numeral? = some (n, isNegative)) (rest : List Char) :
    renderAppend v rest = n.signed isNegative rest ∧
      shapeOf v rest = .number (n.signed isNegative rest) := by
  cases v with
  | unsigned k =>
      cases h
      exact ⟨rfl, rfl⟩
  | negative k =>
      cases h
      rw [← decimalInt_append]
      exact ⟨rfl, rfl⟩
  | binary x =>
      cases h
      rw [← x.render_append]
      exact ⟨rfl, rfl⟩
  | _ => cases h

/-!
# Texts of values
-/

def Visible (cs : List Char) : Prop :=
  ∃ c rest, cs = c :: rest ∧ isSpace c = false ∧ c ≠ ']' ∧ c ≠ '\x7d'

theorem Visible.skipSpace {cs : List Char} (h : Visible cs) : skipSpace cs = cs := by
  rcases h with ⟨c, rest, rfl, hspace, _⟩
  exact List.dropWhile_cons_of_neg (by simp [hspace])

theorem visible_of_number {c : Char} (h : c = '-' ∨ c.isDigit = true) (rest : List Char) :
    Visible (c :: rest) := by
  have hne : ∀ other : Char, other ≠ '-' → other.isDigit = false → c ≠ other := by
    intro other hminus hdigit heq
    subst heq
    exact h.elim hminus fun hc => absurd (hc.symm.trans hdigit) Bool.noConfusion
  refine ⟨c, rest, rfl, ?_, hne ']' (by decide) (by decide), hne '\x7d' (by decide) (by decide)⟩
  unfold isSpace
  simp only [Bool.or_eq_false_iff, beq_eq_false_iff_ne]
  exact ⟨⟨⟨hne ' ' (by decide) (by decide), hne '\n' (by decide) (by decide)⟩,
    hne '\t' (by decide) (by decide)⟩, hne '\r' (by decide) (by decide)⟩

theorem visible_quote (rest : List Char) : Visible ('"' :: rest) :=
  ⟨'"', rest, rfl, by decide, by decide, by decide⟩

theorem visible_signed {n : Numeral} (h : n.WellFormed) (isNegative : Bool) (rest : List Char) :
    Visible (n.signed isNegative rest) := by
  rcases n.signed_eq_cons h isNegative rest with ⟨c, cs, heq, hc⟩
  rw [heq]
  exact visible_of_number hc _

theorem visible_renderAppend (v : Json) (rest : List Char) : Visible (renderAppend v rest) := by
  cases hnumber : v.numeral? with
  | some number =>
      rw [(renderAppend_number hnumber rest).1]
      exact visible_signed (wellFormed_numeral? hnumber) _ _
  | none =>
      cases v with
      | null => exact ⟨'n', _, rfl, by decide, by decide, by decide⟩
      | bool b =>
          cases b with
          | true => exact ⟨'t', _, rfl, by decide, by decide, by decide⟩
          | false => exact ⟨'f', _, rfl, by decide, by decide, by decide⟩
      | string s => exact visible_quote _
      | array items => exact ⟨'[', _, rfl, by decide, by decide, by decide⟩
      | object members => exact ⟨'\x7b', _, rfl, by decide, by decide, by decide⟩
      | _ => cases hnumber

theorem visible_renderItems (v : Json) (vs : List Json) (rest : List Char) :
    Visible (renderItems (v :: vs) rest) := by
  cases vs with
  | nil => exact visible_renderAppend v _
  | cons w vs => exact visible_renderAppend v _

theorem visible_renderMembers (m : String × Json) (ms : List (String × Json))
    (rest : List Char) : Visible (renderMembers (m :: ms) rest) := by
  rcases m with ⟨key, v⟩
  cases ms with
  | nil => exact visible_quote _
  | cons m ms => exact visible_quote _

/-!
# Lengths of texts

The fuel of an outline is twice the length of the text.  Every value and every key takes
at least one character, so there is always fuel left for what follows.
-/

theorem length_stringAppend (s : String) (rest : List Char) :
    rest.length + 2 ≤ (stringAppend s rest).length := by
  have hle := length_lt_escapeAppend s.toList ('"' :: rest)
  rw [stringAppend, List.length_cons]
  rw [List.length_cons] at hle
  omega

theorem length_renderItems {items : List Json}
    (h : ∀ v ∈ items, ∀ rest, rest.length < (renderAppend v rest).length) (rest : List Char) :
    rest.length ≤ (renderItems items rest).length := by
  induction items with
  | nil => exact Nat.le_refl _
  | cons v vs ih =>
      have hv := h v List.mem_cons_self
      have hvs := ih fun w hw => h w (List.mem_cons_of_mem v hw)
      cases vs with
      | nil => exact Nat.le_of_lt (hv rest)
      | cons w vs =>
          have hlt := hv (',' :: renderItems (w :: vs) rest)
          rw [List.length_cons] at hlt
          rw [renderItems]
          omega

theorem length_renderMembers {members : List (String × Json)}
    (h : ∀ m ∈ members, ∀ rest, rest.length < (renderAppend m.2 rest).length)
    (rest : List Char) : rest.length ≤ (renderMembers members rest).length := by
  induction members with
  | nil => exact Nat.le_refl _
  | cons m ms ih =>
      rcases m with ⟨key, v⟩
      have hv : ∀ rest, rest.length < (renderAppend v rest).length :=
        h (key, v) List.mem_cons_self
      have hms := ih fun w hw => h w (List.mem_cons_of_mem _ hw)
      cases ms with
      | nil =>
          have hlt := hv rest
          have hkey := length_stringAppend key (':' :: renderAppend v rest)
          rw [List.length_cons] at hkey
          rw [renderMembers]
          omega
      | cons m ms =>
          have hlt := hv (',' :: renderMembers (m :: ms) rest)
          have hkey := length_stringAppend key
            (':' :: renderAppend v (',' :: renderMembers (m :: ms) rest))
          rw [List.length_cons] at hkey hlt
          rw [renderMembers]
          omega

theorem length_number {v : Json} {number : Numeral × Bool} (h : v.numeral? = some number)
    (rest : List Char) : rest.length < (renderAppend v rest).length := by
  rcases number.1.signed_eq_cons (wellFormed_numeral? h) number.2 rest with ⟨c, cs, heq, _⟩
  rw [(renderAppend_number h rest).1, heq, List.length_cons, List.length_append]
  omega

theorem length_renderAppend (v : Json) (rest : List Char) :
    rest.length < (renderAppend v rest).length := by
  induction v using induction generalizing rest with
  | null => simp [renderAppend]; omega
  | bool b => cases b <;> simp [renderAppend] <;> omega
  | unsigned n => exact length_number rfl rest
  | negative n => exact length_number rfl rest
  | binary x => exact length_number rfl rest
  | string s =>
      have hle := length_stringAppend s rest
      rw [renderAppend]
      omega
  | array items ih =>
      have hle := length_renderItems ih (']' :: rest)
      rw [renderAppend, List.length_cons]
      rw [List.length_cons] at hle
      omega
  | object members ih =>
      have hle := length_renderMembers ih ('\x7d' :: rest)
      rw [renderAppend, List.length_cons]
      rw [List.length_cons] at hle
      omega

/-!
# Outlining
-/

theorem outlineAux_string (fuel : Nat) (s : String) (rest : List Char) :
    outlineAux (fuel + 1) (stringAppend s rest) =
      (.string (escapeAppend s.toList ('"' :: rest)), some rest) := by
  have hspace : skipSpace (stringAppend s rest) = stringAppend s rest :=
    (visible_quote _).skipSpace
  rw [outlineAux, hspace, stringAppend]
  simp only [skipString_escapeAppend, Except.toOption]

theorem outlineAux_number {n : Numeral} (h : n.WellFormed) (isNegative : Bool)
    {rest : List Char} (hrest : EndsValue rest) (fuel : Nat) :
    outlineAux (fuel + 1) (n.signed isNegative rest) =
      (.number (n.signed isNegative rest), some rest) := by
  have hskip := n.skipNumber_signed h hrest isNegative
  have hspace := (visible_signed h isNegative rest).skipSpace
  rcases n.signed_eq_cons h isNegative rest with ⟨c, cs, heq, hc⟩
  rw [heq] at hskip hspace ⊢
  rw [outlineAux, hspace]
  -- The first character is that of a number, which none of those with a case of their own is.
  split
  all_goals
    next heq =>
      cases heq <;> first
        | exact absurd hc (by decide)
        | rw [if_pos hc, hskip]
          rfl

theorem outlineAux_array {text : List Char} (h : Visible text) (fuel : Nat) :
    outlineAux (fuel + 1) ('[' :: text) =
      (.array (outlineItems fuel text).1 (outlineItems fuel text).2.1,
        (outlineItems fuel text).2.2) := by
  have hbracket : skipSpace ('[' :: text) = '[' :: text := rfl
  rw [outlineAux, hbracket]
  simp only
  rw [h.skipSpace]
  rcases h with ⟨c, rest, rfl, _, hclose, _⟩
  split
  · next heq => cases heq
  · next heq => exact absurd (List.cons.inj heq).1 hclose
  · rfl

theorem outlineAux_object {text : List Char} (h : Visible text) (fuel : Nat) :
    outlineAux (fuel + 1) ('\x7b' :: text) =
      (.object (outlineMembers fuel text).1 (outlineMembers fuel text).2.1,
        (outlineMembers fuel text).2.2) := by
  have hbrace : skipSpace ('\x7b' :: text) = '\x7b' :: text := rfl
  rw [outlineAux, hbrace]
  simp only
  rw [h.skipSpace]
  rcases h with ⟨c, rest, rfl, _, _, hclose⟩
  split
  · next heq => cases heq
  · next heq => exact absurd (List.cons.inj heq).1 hclose
  · rfl

theorem outlineItems_last {fuel : Nat} {cs rest : List Char} {item : Outline}
    (h : outlineAux fuel cs = (item, some (']' :: rest))) :
    outlineItems (fuel + 1) cs = ([item], .closed, some rest) := by
  have hbracket : skipSpace (']' :: rest) = ']' :: rest := rfl
  rw [outlineItems, h]
  simp only [hbracket]

theorem outlineItems_more {fuel : Nat} {cs more : List Char} {item : Outline}
    (h : outlineAux fuel cs = (item, some (',' :: more))) (hmore : Visible more) :
    outlineItems (fuel + 1) cs =
      (item :: (outlineItems fuel more).1, (outlineItems fuel more).2) := by
  have hcomma : skipSpace (',' :: more) = ',' :: more := rfl
  rw [outlineItems, h]
  simp only [hcomma, hmore.skipSpace]
  rcases hmore with ⟨c, rest, rfl, _, hclose, _⟩
  split
  · next heq => cases heq
  · next heq => exact absurd (List.cons.inj heq).1 hclose
  · rfl

theorem outlineMembers_last {fuel : Nat} {key : String} {cs rest : List Char} {value : Outline}
    (h : outlineAux fuel cs = (value, some ('\x7d' :: rest))) :
    outlineMembers (fuel + 1) (stringAppend key (':' :: cs)) =
      ([(escapeAppend key.toList ('"' :: ':' :: cs), value)], .closed, some rest) := by
  have hcolon : skipSpace (':' :: cs) = ':' :: cs := rfl
  have hbrace : skipSpace ('\x7d' :: rest) = '\x7d' :: rest := rfl
  rw [stringAppend, outlineMembers]
  simp only [skipString_escapeAppend, hcolon, h, hbrace]

theorem outlineMembers_more {fuel : Nat} {key : String} {cs more : List Char} {value : Outline}
    (h : outlineAux fuel cs = (value, some (',' :: more))) (hmore : Visible more) :
    outlineMembers (fuel + 1) (stringAppend key (':' :: cs)) =
      ((escapeAppend key.toList ('"' :: ':' :: cs), value) :: (outlineMembers fuel more).1,
        (outlineMembers fuel more).2) := by
  have hcolon : skipSpace (':' :: cs) = ':' :: cs := rfl
  have hcomma : skipSpace (',' :: more) = ',' :: more := rfl
  rw [stringAppend, outlineMembers]
  simp only [skipString_escapeAppend, hcolon, h, hcomma, hmore.skipSpace]
  rcases hmore with ⟨c, rest, rfl, _, _, hclose⟩
  split
  · next heq => cases heq
  · next heq => exact absurd (List.cons.inj heq).1 hclose
  · rfl

/-- With fuel for its text a value has its outline, wherever it may end. -/
def Outlines (v : Json) : Prop :=
  ∀ rest fuel, EndsValue rest → 2 * (renderAppend v rest).length ≤ fuel + 2 * rest.length →
    outlineAux fuel (renderAppend v rest) = (shapeOf v rest, some rest)

theorem outlineItems_render {items : List Json} (hne : items ≠ [])
    (hall : ∀ v ∈ items, Outlines v) (rest : List Char) (fuel : Nat)
    (hfuel : 2 * (renderItems items (']' :: rest)).length + 1 ≤ fuel + 2 * (rest.length + 1)) :
    outlineItems fuel (renderItems items (']' :: rest)) =
      (shapesOf items (']' :: rest), .closed, some rest) := by
  induction items generalizing fuel with
  | nil => exact absurd rfl hne
  | cons v vs ih =>
      have hv := hall v List.mem_cons_self
      cases vs with
      | nil =>
          have hlt := length_renderAppend v (']' :: rest)
          simp only [renderItems, List.length_cons] at hfuel hlt ⊢
          cases fuel with
          | zero => omega
          | succ fuel =>
              refine outlineItems_last (hv _ fuel (endsValue_bracket rest) ?_)
              rw [List.length_cons]
              omega
      | cons w vs =>
          have hlt := length_renderAppend v (',' :: renderItems (w :: vs) (']' :: rest))
          have hle := @length_renderItems (w :: vs) (fun u _ => length_renderAppend u)
            (']' :: rest)
          simp only [renderItems, List.length_cons] at hfuel hlt hle ⊢
          cases fuel with
          | zero => omega
          | succ fuel =>
              have hmore := ih (List.cons_ne_nil w vs)
                (fun u hu => hall u (List.mem_cons_of_mem v hu)) fuel (by omega)
              have hfirst := hv (',' :: renderItems (w :: vs) (']' :: rest)) fuel
                (endsValue_comma _)
                (by rw [List.length_cons]; omega)
              rw [outlineItems_more hfirst (visible_renderItems w vs _), hmore, shapesOf]

theorem outlineMembers_render {members : List (String × Json)} (hne : members ≠ [])
    (hall : ∀ m ∈ members, Outlines m.2) (rest : List Char) (fuel : Nat)
    (hfuel : 2 * (renderMembers members ('\x7d' :: rest)).length + 1 ≤
      fuel + 2 * (rest.length + 1)) :
    outlineMembers fuel (renderMembers members ('\x7d' :: rest)) =
      (memberShapes members ('\x7d' :: rest), .closed, some rest) := by
  induction members generalizing fuel with
  | nil => exact absurd rfl hne
  | cons m ms ih =>
      rcases m with ⟨key, v⟩
      have hv : Outlines v := hall (key, v) List.mem_cons_self
      cases ms with
      | nil =>
          have hlt := length_renderAppend v ('\x7d' :: rest)
          have hkey := length_stringAppend key (':' :: renderAppend v ('\x7d' :: rest))
          simp only [renderMembers, List.length_cons] at hfuel hlt hkey ⊢
          cases fuel with
          | zero => omega
          | succ fuel =>
              refine outlineMembers_last (hv _ fuel (endsValue_brace rest) ?_)
              rw [List.length_cons]
              omega
      | cons m ms =>
          have hlt := length_renderAppend v (',' :: renderMembers (m :: ms) ('\x7d' :: rest))
          have hkey := length_stringAppend key
            (':' :: renderAppend v (',' :: renderMembers (m :: ms) ('\x7d' :: rest)))
          have hle := @length_renderMembers (m :: ms)
            (fun u _ => length_renderAppend u.2) ('\x7d' :: rest)
          simp only [renderMembers, List.length_cons] at hfuel hlt hkey hle ⊢
          cases fuel with
          | zero => omega
          | succ fuel =>
              have hmore := ih (List.cons_ne_nil m ms)
                (fun u hu => hall u (List.mem_cons_of_mem _ hu)) fuel (by omega)
              have hfirst := hv (',' :: renderMembers (m :: ms) ('\x7d' :: rest)) fuel
                (endsValue_comma _) (by rw [List.length_cons]; omega)
              rw [outlineMembers_more hfirst (visible_renderMembers m ms _), hmore,
                memberShapes]

theorem outlines_number {v : Json} {number : Numeral × Bool} (h : v.numeral? = some number) :
    Outlines v := by
  intro rest fuel hrest hfuel
  have hlt := length_number h rest
  rcases renderAppend_number h rest with ⟨htext, hshape⟩
  rw [htext, hshape]
  cases fuel with
  | zero => omega
  | succ fuel => exact outlineAux_number (wellFormed_numeral? h) number.2 hrest fuel

theorem outlineAux_render (v : Json) : Outlines v := by
  induction v using induction with
  | null =>
      intro rest fuel _ hfuel
      simp only [renderAppend, List.length_cons] at hfuel
      cases fuel with
      | zero => omega
      | succ fuel => rfl
  | bool b =>
      intro rest fuel _ hfuel
      cases b <;> simp only [renderAppend, List.length_cons] at hfuel <;>
        cases fuel with
        | zero => omega
        | succ fuel => rfl
  | unsigned n => exact outlines_number rfl
  | negative n => exact outlines_number rfl
  | binary x => exact outlines_number rfl
  | string s =>
      intro rest fuel _ hfuel
      have hlt := length_renderAppend (.string s) rest
      cases fuel with
      | zero => omega
      | succ fuel => exact outlineAux_string fuel s rest
  | array items ih =>
      intro rest fuel _ hfuel
      rw [renderAppend, List.length_cons] at hfuel
      have hle := @length_renderItems items (fun v _ => length_renderAppend v)
        (']' :: rest)
      rw [List.length_cons] at hle
      cases fuel with
      | zero => omega
      | succ fuel =>
          cases items with
          | nil => rfl
          | cons v vs =>
              have hitems := outlineItems_render (List.cons_ne_nil v vs) ih rest fuel (by omega)
              rw [renderAppend, outlineAux_array (visible_renderItems v vs _), hitems, shapeOf]
  | object members ih =>
      intro rest fuel _ hfuel
      rw [renderAppend, List.length_cons] at hfuel
      have hle := @length_renderMembers members (fun m _ => length_renderAppend m.2)
        ('\x7d' :: rest)
      rw [List.length_cons] at hle
      cases fuel with
      | zero => omega
      | succ fuel =>
          cases members with
          | nil => rfl
          | cons m ms =>
              have hmembers := outlineMembers_render (List.cons_ne_nil m ms) ih rest fuel
                (by omega)
              rw [renderAppend, outlineAux_object (visible_renderMembers m ms _), hmembers,
                shapeOf]

theorem outline_render (v : Json) : outline v.render.toList = (shapeOf v [], some []) := by
  unfold outline render
  rw [String.toList_ofList]
  exact outlineAux_render v [] _ trivial (by simp)

/-!
# Passing over
-/

theorem shapesOf_cons (v : Json) (vs : List Json) {rest : List Char} (hrest : EndsValue rest) :
    ∃ next, EndsValue next ∧ shapesOf (v :: vs) rest = shapeOf v next :: shapesOf vs rest := by
  cases vs with
  | nil => exact ⟨rest, hrest, rfl⟩
  | cons w vs => exact ⟨_, endsValue_comma _, rfl⟩

theorem memberShapes_cons (key : String) (v : Json) (ms : List (String × Json))
    {rest : List Char} (hrest : EndsValue rest) :
    ∃ text next, EndsValue next ∧ memberShapes ((key, v) :: ms) rest =
      (escapeAppend key.toList ('"' :: text), shapeOf v next) :: memberShapes ms rest := by
  cases ms with
  | nil => exact ⟨_, rest, hrest, rfl⟩
  | cons m ms => exact ⟨_, _, endsValue_comma _, rfl⟩

theorem skipItems_shapesOf {items : List Json}
    (h : ∀ v ∈ items, ∀ rest, EndsValue rest → (shapeOf v rest).skip = .ok ())
    {rest : List Char} (hrest : EndsValue rest) :
    Outline.skipItems (shapesOf items rest) = .ok () := by
  induction items with
  | nil => rfl
  | cons v vs ih =>
      rcases shapesOf_cons v vs hrest with ⟨next, hnext, hshapes⟩
      rw [hshapes, Outline.skipItems, h v List.mem_cons_self next hnext]
      exact ih fun w hw => h w (List.mem_cons_of_mem v hw)

theorem skipMembers_memberShapes {members : List (String × Json)}
    (h : ∀ m ∈ members, ∀ rest, EndsValue rest → (shapeOf m.2 rest).skip = .ok ())
    {rest : List Char} (hrest : EndsValue rest) :
    Outline.skipMembers (memberShapes members rest) = .ok () := by
  induction members with
  | nil => rfl
  | cons m ms ih =>
      rcases m with ⟨key, v⟩
      rcases memberShapes_cons key v ms hrest with ⟨text, next, hnext, hshapes⟩
      have hv : (shapeOf v next).skip = .ok () := h (key, v) List.mem_cons_self next hnext
      rw [hshapes, Outline.skipMembers, skipString_escapeAppend, hv]
      exact ih fun w hw => h w (List.mem_cons_of_mem _ hw)

theorem skip_number {v : Json} {number : Numeral × Bool} (h : v.numeral? = some number)
    {rest : List Char} (hrest : EndsValue rest) : (shapeOf v rest).skip = .ok () := by
  have hskip := number.1.skipNumber_signed (wellFormed_numeral? h) hrest number.2
  rw [(renderAppend_number h rest).2, Outline.skip, hskip]
  rfl

/-- What was written can be passed over. -/
theorem skip_shapeOf (v : Json) {rest : List Char} (hrest : EndsValue rest) :
    (shapeOf v rest).skip = .ok () := by
  induction v using induction generalizing rest with
  | null => rfl
  | bool b => rfl
  | unsigned n => exact skip_number rfl hrest
  | negative n => exact skip_number rfl hrest
  | binary x => exact skip_number rfl hrest
  | string s =>
      rw [shapeOf, Outline.skip, skipString_escapeAppend]
      rfl
  | array items ih =>
      rw [shapeOf, Outline.skip,
        skipItems_shapesOf (fun v hv _ => ih v hv) (endsValue_bracket rest)]
      rfl
  | object members ih =>
      rw [shapeOf, Outline.skip,
        skipMembers_memberShapes (fun m hm _ => ih m hm) (endsValue_brace rest)]
      rfl

end Json
end WalletLedger
