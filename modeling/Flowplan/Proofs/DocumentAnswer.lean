import Flowplan.Proofs.ReadComplaints
import Flowplan.Proofs.ReaderDigits

namespace Flowplan.Plan
set_option autoImplicit true

open Flowplan.Json

namespace Source

/-- What comes of reading the document, where there is something to read. -/
def reading? : Source → Option (Except DocumentError Json)
  | .value (.str s) => some ((Json.read s).mapError .unreadable)
  | .value (.unpaired s) => some ((Json.read s).mapError .unreadable)
  | .value _ => none
  | .text s => some ((Json.read s).mapError .unreadable)
  | .bytes bs => some (readBytes bs)

end Source

/-- The plan in what was read. -/
def ofReading : Except DocumentError Json → Except HugeInteger Parsed
  | .ok v => .ok (ofJson v)
  | .error (.undecodable e) => .ok (.error [.undecodable e.message])
  | .error (.unreadable e) => ofRead (.error e)

theorem ofReading_unreadable (r : Except ReadError Json) :
    ofReading (r.mapError .unreadable) = ofRead r := by
  cases r <;> rfl

variable {src : Source}

theorem parse_of_reading (h : src.reading? = some r) : parse src = ofReading r := by
  cases src with
  | value v =>
    cases v with
    | str s =>
      obtain rfl := Option.some.inj h
      exact (ofReading_unreadable _).symm
    | unpaired s =>
      obtain rfl := Option.some.inj h
      exact (ofReading_unreadable _).symm
    | _ => simp [Source.reading?] at h
  | text s =>
    obtain rfl := Option.some.inj h
    exact (ofReading_unreadable _).symm
  | bytes bs =>
    obtain rfl := Option.some.inj h
    rw [parse]
    cases readBytes bs with
    | ok v => rfl
    | error e => cases e <;> rfl

end Flowplan.Plan
