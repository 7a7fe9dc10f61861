import WalletLedger.Json.Codec

/-!
# Fields of a record

A record is an object with a member for each field, in any order and among other members,
or an array of the fields in their declared order.  A list of fields is read into a row
with one entry for each field; while an object is read, a row of slots holds what has been
seen so far.
-/

namespace WalletLedger
namespace Json

/-- What stands for a field that a document does not have. -/
inductive Absence (α : Type) where
  /-- The field has to be there. -/
  | refused
  /-- An object may lack the field; an array may not. -/
  | inObject (x : α)
  /-- An object may lack the field, and an array may end before it. -/
  | anywhere (x : α)

structure Field (α : Type) where
  name : String
  codec : Codec α
  absence : Absence α := .refused
  /-- Whether a value is left out when it is written. -/
  omitted : α → Bool := fun _ => false

inductive Fields : List Type → Type 1 where
  | nil : Fields []
  | cons {α : Type} {ts : List Type} (field : Field α) (rest : Fields ts) : Fields (α :: ts)

def Row : List Type → Type
  | [] => Unit
  | α :: ts => α × Row ts

def Slots : List Type → Type
  | [] => Unit
  | α :: ts => Option α × Slots ts

namespace Field

def required (name : String) (codec : Codec α) : Field α :=
  { name, codec }

def orElse (name : String) (codec : Codec α) (x : α) : Field α :=
  { name, codec, absence := .anywhere x }

/-- A field that objects may lack. -/
def perhaps (name : String) (codec : Codec α) : Field (Option α) :=
  { name, codec := codec.optional, absence := .inObject none }

end Field

namespace Fields

def names : Fields ts → List String
  | .nil => []
  | .cons f rest => f.name :: rest.names

def blank : Fields ts → Slots ts
  | .nil => ()
  | .cons _ rest => (none, rest.blank)

/--
Fills the slot that has the key, by a reader that is given the codec of the field.  Nothing
comes back when no field has the key.
-/
def fill (key : String) (reader : {α : Type} → Codec α → Except Mismatch α) :
    Fields ts → Slots ts → Option (Except Mismatch (Slots ts))
  | .nil, _ => none
  | .cons f rest, (slot, slots) =>
      if f.name = key then
        match slot with
        | some _ => some (.error (.duplicate f.name))
        | none => some ((reader f.codec).map fun x => (some x, slots))
      else
        (rest.fill key reader slots).map fun r => r.map fun slots => (slot, slots)

/-- Makes a row of the slots; the first field that is missing is reported. -/
def settle : Fields ts → Slots ts → Except Mismatch (Row ts)
  | .nil, _ => .ok ()
  | .cons f rest, (slot, slots) => do
      let x ←
        match slot, f.absence with
        | some x, _ => .ok x
        | none, .inObject x | none, .anywhere x => .ok x
        | none, .refused => .error (.missing f.name)
      let row ← rest.settle slots
      .ok (x, row)

/-!
# Objects
-/

/-- Reads the members of an object in a text; members of other names are passed over. -/
def ofOutlines (fields : Fields ts) (depth : Nat) :
    Slots ts → List (List Char × Outline) → Except Mismatch (Slots ts)
  | slots, [] => .ok slots
  | slots, (key, shape) :: rest => do
      let (cs, _) ← orFault (readString key)
      match fields.fill (String.ofList cs) (fun c => c.ofOutline depth shape) slots with
      | some slots => do
          let slots ← slots
          fields.ofOutlines depth slots rest
      | none => do
          orFault shape.skip
          fields.ofOutlines depth slots rest

def ofMembers (fields : Fields ts) (holder : Holder) :
    Slots ts → List (String × Json) → Except Mismatch (Slots ts)
  | slots, [] => .ok slots
  | slots, (key, v) :: rest =>
      match fields.fill key (fun c => c.ofJson holder v) slots with
      | some slots => do
          let slots ← slots
          fields.ofMembers holder slots rest
      | none => fields.ofMembers holder slots rest

/-!
# Arrays
-/

/--
Reads the fields from the items of an array in a text.  The items that are left over come
back with the row.
-/
def ofOutlineItems (wanted : String) (depth : Nat) (ending : ArrayEnd) :
    Nat → Fields ts → List Outline → Except Mismatch (Row ts × List Outline)
  | _, .nil, items => .ok ((), items)
  | place, .cons f rest, item :: items => do
      let x ← f.codec.ofOutline depth item
      let (row, items) ← rest.ofOutlineItems wanted depth ending (place + 1) items
      .ok ((x, row), items)
  | place, .cons f rest, [] => do
      orFault (raise? ending.nextFault?)
      match f.absence with
      | .anywhere x => do
          let (row, items) ← rest.ofOutlineItems wanted depth ending (place + 1) []
          .ok ((x, row), items)
      | _ => .error (.length place wanted)

def ofItems (wanted : String) (holder : Holder) :
    Nat → Fields ts → List Json → Except Mismatch (Row ts × List Json)
  | _, .nil, items => .ok ((), items)
  | place, .cons f rest, item :: items => do
      let x ← f.codec.ofJson holder item
      let (row, items) ← rest.ofItems wanted holder (place + 1) items
      .ok ((x, row), items)
  | place, .cons f rest, [] => do
      match f.absence with
      | .anywhere x => do
          let (row, items) ← rest.ofItems wanted holder (place + 1) []
          .ok ((x, row), items)
      | _ => .error (.length place wanted)

def fewerItems (holder : Holder) (fields : Nat) : String :=
  match holder with
  | .value => "fewer elements in array"
  | .held => if fields = 1 then "1 element in sequence" else s!"{fields} elements in sequence"

/-- A row from an array in a text, which has to end where the fields end. -/
def rowOfArray (fields : Fields ts) (wanted : String) (depth : Nat) (items : List Outline)
    (ending : ArrayEnd) : Except Mismatch (Row ts) := do
  let depth ← orFault (Outline.enter depth)
  let (row, items) ← fields.ofOutlineItems wanted depth ending 0 items
  if items.isEmpty then
    orFault (raise? ending.closeFault?)
    .ok row
  else
    .error (.fault .trailingCharacters)

def rowOfItems (fields : Fields ts) (wanted : String) (holder : Holder) (items : List Json) :
    Except Mismatch (Row ts) := do
  let (row, rest) ← fields.ofItems wanted holder 0 items
  if rest.isEmpty then .ok row
  else .error (.length items.length (fewerItems holder fields.names.length))

/-!
# Writing
-/

def toMembers : Fields ts → Row ts → List (String × Json)
  | .nil, _ => []
  | .cons f rest, (x, row) =>
      if f.omitted x then rest.toMembers row
      else (f.name, f.codec.toJson x) :: rest.toMembers row

def toItems : Fields ts → Row ts → List Json
  | .nil, _ => []
  | .cons f rest, (x, row) => f.codec.toJson x :: rest.toItems row

end Fields

/-!
# Codecs made of fields
-/

namespace Codec

def arrayForm (wanted : String) (fields : Nat) : String :=
  if fields = 1 then s!"{wanted} with 1 element" else s!"{wanted} with {fields} elements"

def record (name : String) (fields : Fields ts) (pack : Row ts → α) (unpack : α → Row ts) :
    Codec α :=
  let wanted := "struct " ++ name
  let wantedArray := arrayForm wanted fields.names.length
  { ofOutline := fun depth shape =>
      match shape with
      | .array items ending => (fields.rowOfArray wantedArray depth items ending).map pack
      | .object members ending => do
          let depth ← orFault (Outline.enter depth)
          let slots ← fields.ofOutlines depth fields.blank members
          orFault (raise? ending.nextFault?)
          let row ← fields.settle slots
          .ok (pack row)
      | shape => shape.refuse wanted
    ofJson := fun holder v =>
      match v with
      | .array items => (fields.rowOfItems wantedArray holder items).map pack
      | .object members => do
          let slots ← fields.ofMembers holder fields.blank members
          let row ← fields.settle slots
          .ok (pack row)
      | v => .error (.kind v.found wanted)
    toJson := fun x => .object (fields.toMembers (unpack x)) }

def pair (a : Codec α) (b : Codec β) : Codec (α × β) :=
  let wanted := "a tuple of size 2"
  let fields : Fields [α, β] := .cons (.required "0" a) (.cons (.required "1" b) .nil)
  { ofOutline := fun depth shape =>
      match shape with
      | .array items ending =>
          (fields.rowOfArray wanted depth items ending).map fun (x, y, _) => (x, y)
      | shape => shape.refuse wanted
    ofJson := fun holder v =>
      match v with
      | .array items => (fields.rowOfItems wanted holder items).map fun (x, y, _) => (x, y)
      | v => .error (.kind v.found wanted)
    toJson := fun (x, y) => .array (fields.toItems (x, y, ())) }

/-!
# Records within records

The fields of an inner record can stand among the members of an outer object.  The members
that are not of the outer record are held back as values until the object has ended.
-/

/-- Reads the members of an object in a text, holding back what is not of the outer fields. -/
def holdOutlines (outer : Fields ts) (depth : Nat) :
    Slots ts → List (List Char × Outline) →
      Except Mismatch (Slots ts × List (String × Json))
  | slots, [] => .ok (slots, [])
  | slots, (key, shape) :: rest => do
      let (cs, _) ← orFault (readString key)
      let key := String.ofList cs
      match outer.fill key (fun c => c.ofOutline depth shape) slots with
      | some slots => do
          let slots ← slots
          holdOutlines outer depth slots rest
      | none => do
          let v ← orFault (shape.read depth)
          let (slots, held) ← holdOutlines outer depth slots rest
          .ok (slots, (key, v) :: held)

def holdMembers (outer : Fields ts) (holder : Holder) :
    Slots ts → List (String × Json) → Except Mismatch (Slots ts × List (String × Json))
  | slots, [] => .ok (slots, [])
  | slots, (key, v) :: rest =>
      match outer.fill key (fun c => c.ofJson holder v) slots with
      | some slots => do
          let slots ← slots
          holdMembers outer holder slots rest
      | none => do
          let (slots, held) ← holdMembers outer holder slots rest
          .ok (slots, (key, v) :: held)

/-- An outer record whose object also holds the fields of an inner record. -/
def flattened (name : String) (inner : Fields ts) (outer : Fields us)
    (pack : Row ts → Row us → α) (unpack : α → Row ts × Row us) : Codec α :=
  let wanted := "struct " ++ name
  let finish (slots : Slots us) (held : List (String × Json)) : Except Mismatch α := do
    let outerRow ← outer.settle slots
    let slots ← inner.ofMembers .held inner.blank held
    let innerRow ← inner.settle slots
    .ok (pack innerRow outerRow)
  { ofOutline := fun depth shape =>
      match shape with
      | .object members ending => do
          let depth ← orFault (Outline.enter depth)
          let (slots, held) ← holdOutlines outer depth outer.blank members
          orFault (raise? ending.nextFault?)
          finish slots held
      | shape => shape.refuse wanted
    ofJson := fun holder v =>
      match v with
      | .object members => do
          let (slots, held) ← holdMembers outer holder outer.blank members
          finish slots held
      | v => .error (.kind v.found wanted)
    toJson := fun x =>
      let (innerRow, outerRow) := unpack x
      .object (inner.toMembers innerRow ++ outer.toMembers outerRow) }

end Codec
end Json
end WalletLedger
