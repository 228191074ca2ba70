import Flowplan.Locator
import Flowplan.Json.Basic

namespace Flowplan.Json
set_option autoImplicit true

/-- The part of a value that one token leads to. -/
def part? : Json → Token → Option Json
  | .arr vs, .index n => if n < 0 then none else vs[n.toNat]?
  | .obj ms, .name k => Table.get? ms k
  | _, _ => none

/-- The value that a locator leads to, followed from another value. -/
def at? : Json → Locator → Option Json
  | v, [] => some v
  | v, t :: rest => (v.part? t).bind fun w => at? w rest

@[simp] theorem at?_nil (v : Json) : v.at? [] = some v := rfl

@[simp] theorem at?_cons (v : Json) (t : Token) (rest : Locator) :
    v.at? (t :: rest) = (v.part? t).bind fun w => w.at? rest := rfl

theorem at?_append (v : Json) (front back : Locator) :
    v.at? (front ++ back) = (v.at? front).bind fun w => w.at? back := by
  induction front generalizing v with
  | nil => rfl
  | cons t rest ih =>
    rw [List.cons_append, at?_cons, at?_cons, Option.bind_assoc]
    congr 1
    funext w
    exact ih w

theorem part?_index (vs : List Json) (n : Nat) : (Json.arr vs).part? (.index n) = vs[n]? := by
  have hn : ¬ (n : Int) < 0 := by omega
  rw [part?, if_neg hn, Int.toNat_natCast]

@[simp] theorem part?_name (ms : Object) (k : String) :
    (Json.obj ms).part? (.name k) = Table.get? ms k := rfl

end Flowplan.Json
