import Flowplan.Workflow.Flatten

namespace Flowplan.Build
set_option autoImplicit true

variable {α β : Type}

/-- What a computation comes to after some calls, with all calls made by then. -/
def runFrom (x : Build α) (calls : List Call) : Except Obstacle α × List Call :=
  x.run.run calls

@[simp] theorem runFrom_pure (a : α) (calls : List Call) :
    runFrom (pure a) calls = (.ok a, calls) := rfl

@[simp] theorem runFrom_throw (e : Obstacle) (calls : List Call) :
    runFrom (throw e : Build α) calls = (.error e, calls) := rfl

@[simp] theorem runFrom_ofExcept (r : Except Obstacle α) (calls : List Call) :
    runFrom (ofExcept r) calls = (r, calls) := rfl

theorem runFrom_pure_eq_ok {a b : α} :
    runFrom (pure a) calls = (.ok b, calls') ↔ a = b ∧ calls = calls' := by
  rw [runFrom_pure, Prod.mk.injEq, Except.ok.injEq]

theorem runFrom_ofExcept_eq_ok {r : Except Obstacle α} :
    runFrom (ofExcept r) calls = (.ok a, calls') ↔ r = .ok a ∧ calls = calls' := by
  rw [runFrom_ofExcept, Prod.mk.injEq]

theorem runFrom_bind (x : Build α) (f : α → Build β) (calls : List Call) :
    runFrom (x >>= f) calls = match runFrom x calls with
      | (.ok a, calls) => runFrom (f a) calls
      | (.error e, calls) => (.error e, calls) := by
  change StateT.run (ExceptT.run (x >>= f)) calls = _
  rw [ExceptT.run_bind, StateT.run_bind]
  unfold runFrom
  cases StateT.run (ExceptT.run x) calls with
  | mk r calls => cases r <;> rfl

theorem runFrom_bind_ok {x : Build α} (h : runFrom x calls = (.ok a, calls')) (f : α → Build β) :
    runFrom (x >>= f) calls = runFrom (f a) calls' := by
  rw [runFrom_bind, h]

theorem runFrom_bind_error {x : Build α} (h : runFrom x calls = (.error e, calls'))
    (f : α → Build β) : runFrom (x >>= f) calls = (.error e, calls') := by
  rw [runFrom_bind, h]

/-- A run in two parts succeeds when both parts do, the second after the calls of the first. -/
theorem runFrom_bind_eq_ok {x : Build α} {f : α → Build β} :
    runFrom (x >>= f) calls = (.ok b, calls') ↔
      ∃ a middle, runFrom x calls = (.ok a, middle) ∧ runFrom (f a) middle = (.ok b, calls') := by
  constructor
  · intro h
    rw [runFrom_bind] at h
    cases hx : runFrom x calls with
    | mk r middle =>
      rw [hx] at h
      cases r with
      | ok a => exact ⟨a, middle, rfl, h⟩
      | error e => simp at h
  · rintro ⟨a, middle, hx, hf⟩
    rw [runFrom_bind_ok hx, hf]

theorem runFrom_bind_left {x y : Build α} (h : runFrom x calls = runFrom y calls)
    (f : α → Build β) : runFrom (x >>= f) calls = runFrom (y >>= f) calls := by
  rw [runFrom_bind, runFrom_bind, h]

/-- What follows a run matters only for the outcomes that the run has. -/
theorem runFrom_bind_congr {x : Build α} {f g : α → Build β}
    (h : ∀ a middle, runFrom x calls = (.ok a, middle) →
      runFrom (f a) middle = runFrom (g a) middle) :
    runFrom (x >>= f) calls = runFrom (x >>= g) calls := by
  rw [runFrom_bind, runFrom_bind]
  cases hx : runFrom x calls with
  | mk r middle =>
    cases r with
    | ok a => exact h a middle hx
    | error e => rfl

theorem runFrom_getThe (calls : List Call) :
    runFrom (getThe (List Call)) calls = (.ok calls, calls) := rfl

theorem runFrom_set (next calls : List Call) :
    runFrom (set next) calls = (.ok PUnit.unit, next) := rfl

theorem runFrom_resolve (context : Context) (slug : String) (calls : List Call) :
    runFrom (resolve context slug) calls =
      ((context.resolve calls slug).mapError fun o => .breakdown (.outage o),
        calls ++ [.resolve slug]) := by
  rw [resolve, runFrom_bind, runFrom_getThe]
  simp only [runFrom_bind, runFrom_set]
  cases context.resolve calls slug <;> rfl

end Flowplan.Build
