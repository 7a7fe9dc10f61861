import WalletLedger.Http.Message

/-!
# Resources

What the paths of the service name.  Paths are compared piece by piece as they stand; a
parameter is one piece that is not empty.
-/

namespace WalletLedger
namespace Api

inductive Resource where
  | health
  | history
  | count
  | status
  | refresh
  /-- A record by its place; the parameter is still encoded. -/
  | byIndex (parameter : String)
  | byHash (parameter : String)
  | unknown
  deriving DecidableEq, Repr

namespace Resource

def pieces (path : String) : List String :=
  (path.toList.splitOn '/').map String.ofList

def ofPieces? : List String → Option Resource
  | [] => some .unknown
  | [""] => none
  | ["v1", "health"] => some .health
  | ["v1", "history"] => some .history
  | ["v1", "history", "count"] => some .count
  | ["v1", "history", "status"] => some .status
  | ["v1", "history", "refresh"] => some .refresh
  | ["v1", "history", "index", parameter] =>
      if parameter.isEmpty then some .unknown else some (.byIndex parameter)
  | ["v1", "history", "tx", parameter] =>
      if parameter.isEmpty then some .unknown else some (.byHash parameter)
  | _ => some .unknown

def ofPath? (path : String) : Option Resource :=
  match pieces path with
  | "" :: "api" :: rest => ofPieces? rest
  | _ => none

/-- The methods of a resource, where it does not take all of them. -/
def methods? : Resource → Option (List Http.Method)
  | .unknown => none
  | .refresh => some [.post]
  | _ => some [.get, .head]

def accepts (r : Resource) (m : Http.Method) : Bool :=
  match r.methods? with
  | some methods => methods.contains m
  | none => true

end Resource
end Api
end WalletLedger
