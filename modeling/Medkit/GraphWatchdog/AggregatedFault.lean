import Medkit.Lib.Bytes
import Medkit.Lib.OrderedMap

/-! The description of an aggregated fault: one line for each affected entity, the named ones
first, cut to a fixed length. -/
namespace Medkit.GraphWatchdog.AggregatedFault

open Lib

def kMaxDescriptionChars : Nat := 480

def appendEntity (desc key detail : Str) : Str :=
  (if desc = [] then desc else desc ++ str "; ") ++ (if detail = [] then key else detail)

/-- The entities in the order asked for; the loop stops once the text is too long. -/
def describeNamed (affected : OMap Str Str) : List Str → Str → OSet Str → Str × OSet Str
  | [], desc, emitted => (desc, emitted)
  | key :: order, desc, emitted =>
      match affected[key]? with
      | none => describeNamed affected order desc emitted
      | some detail =>
          if emitted.contains key then describeNamed affected order desc emitted
          else
            let desc := appendEntity desc key detail
            let emitted := emitted.insert key
            if desc.length > kMaxDescriptionChars then (desc, emitted)
            else describeNamed affected order desc emitted

def describeRest (emitted : OSet Str) : List (Str × Str) → Str → Str
  | [], desc => desc
  | (key, detail) :: entities, desc =>
      if emitted.contains key then describeRest emitted entities desc
      else
        let desc := appendEntity desc key detail
        if desc.length > kMaxDescriptionChars then desc else describeRest emitted entities desc

def capDescription (desc : Str) : Str :=
  if desc.length > kMaxDescriptionChars then desc.take (kMaxDescriptionChars - 3) ++ str "..."
  else desc

def describeOrdered (affected : OMap Str Str) (order : List Str) : Str :=
  let (desc, emitted) := describeNamed affected order [] ∅
  capDescription
    (if desc.length ≤ kMaxDescriptionChars then describeRest emitted affected.toList desc else desc)

end Medkit.GraphWatchdog.AggregatedFault
