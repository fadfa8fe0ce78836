import IceFigures.Fault

/-!
# Outcomes

Readers are put together from readers that may refuse. What such a reader has
read is found by asking what its parts have read, and so is what it was refused for.

## Theorems

* `bind_eq_ok`: A computation succeeds if its first step and what follows do.
* `map_eq_ok`: A computation with a function behind it succeeds if it does.
* `bind_eq_error`: A computation fails if its first step or what follows does.
* `map_eq_error`: A computation with a function behind it fails if it does.
-/

namespace IceFigures

variable {ε α β : Type}

theorem bind_eq_ok {x : Except ε α} {f : α → Except ε β} {b : β} :
    (x >>= f) = .ok b ↔ ∃ a, x = .ok a ∧ f a = .ok b := by
  cases x with
  | error e =>
      constructor
      · intro h
        simp only [bind, Except.bind, reduceCtorEq] at h
      · rintro ⟨a, ha, -⟩
        simp only [reduceCtorEq] at ha
  | ok a =>
      constructor
      · exact fun h => ⟨a, rfl, h⟩
      · rintro ⟨a', ha', h⟩
        rwa [← Except.ok.inj ha'] at h

theorem map_eq_ok {x : Except ε α} {g : α → β} {b : β} :
    x.map g = .ok b ↔ ∃ a, x = .ok a ∧ g a = b := by
  cases x with
  | error e =>
      constructor
      · intro h
        simp only [Except.map, reduceCtorEq] at h
      · rintro ⟨a, ha, -⟩
        simp only [reduceCtorEq] at ha
  | ok a =>
      constructor
      · exact fun h => ⟨a, rfl, Except.ok.inj h⟩
      · rintro ⟨a', ha', h⟩
        rw [Except.ok.inj ha', Except.map, h]

theorem bind_eq_error {x : Except ε α} {f : α → Except ε β} {e : ε} :
    (x >>= f) = .error e ↔ x = .error e ∨ ∃ a, x = .ok a ∧ f a = .error e := by
  cases x with
  | error e' => simp only [bind, Except.bind, Except.error.injEq, reduceCtorEq, false_and,
      exists_false, or_false]
  | ok a => simp only [bind, Except.bind, Except.ok.injEq, reduceCtorEq, false_or,
      exists_eq_left']

theorem map_eq_error {x : Except ε α} {g : α → β} {e : ε} :
    x.map g = .error e ↔ x = .error e := by
  cases x with
  | error e' => simp only [Except.map, Except.error.injEq]
  | ok a => simp only [Except.map, reduceCtorEq]

end IceFigures
