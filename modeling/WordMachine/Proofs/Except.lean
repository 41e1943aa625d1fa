import Mathlib.Tactic.Common

/-!
# Steps that can fail

A result that comes from steps which can fail is right exactly if every step was:
one equivalence for each way of joining steps, so that a proof takes a result apart
step by step.
-/

namespace Except

variable {ε α β : Type} {x : Except ε α}

theorem ok_bind (a : α) (f : α → Except ε β) : (Except.ok a >>= f) = f a := rfl

theorem error_bind (e : ε) (f : α → Except ε β) : (Except.error e >>= f) = .error e := rfl

theorem bind_ok_eq_map (f : α → β) : (x >>= fun a => .ok (f a)) = x.map f := by
  cases x <;> rfl

@[simp] theorem map_eq_ok_iff {f : α → β} {b : β} :
    x.map f = .ok b ↔ ∃ a, x = .ok a ∧ f a = b := by
  cases x <;> simp [Except.map]

@[simp] theorem map_eq_error_iff {f : α → β} {e : ε} : x.map f = .error e ↔ x = .error e := by
  cases x <;> simp [Except.map]

@[simp] theorem bind_eq_ok_iff {f : α → Except ε β} {b : β} :
    (x >>= f) = .ok b ↔ ∃ a, x = .ok a ∧ f a = .ok b := by
  cases x <;> simp [bind, Except.bind]

@[simp] theorem bind_eq_error_iff {f : α → Except ε β} {e : ε} :
    (x >>= f) = .error e ↔ x = .error e ∨ ∃ a, x = .ok a ∧ f a = .error e := by
  cases x <;> simp [bind, Except.bind]

theorem unit_bind_eq_ok_iff {x : Except ε Unit} {f : Unit → Except ε β} {b : β} :
    (x >>= f) = .ok b ↔ x = .ok () ∧ f () = .ok b := by
  cases x <;> simp [bind, Except.bind]

theorem exists_map_eq_ok_iff {f : α → β} : (∃ b, x.map f = .ok b) ↔ ∃ a, x = .ok a := by
  cases x <;> simp [Except.map]

theorem ite_eq_ok_iff {p : Prop} [Decidable p] {a b : α} {e : ε} :
    (if p then .ok a else .error e : Except ε α) = .ok b ↔ p ∧ a = b := by
  by_cases h : p <;> simp [h]

theorem exists_ite_eq_ok_iff {p : Prop} [Decidable p] {a : α} {e : ε} :
    (∃ b, (if p then .ok a else .error e : Except ε α) = .ok b) ↔ p := by
  by_cases h : p <;> simp [h]

/-- A result is not right exactly if it is wrong in some way. -/
theorem exists_eq_error_iff : (∃ e, x = .error e) ↔ ¬∃ a, x = .ok a := by
  cases x <;> simp

/-- A list of steps fails in the first of them that fails. -/
theorem exists_of_mapM_eq_error {f : α → Except ε β} {as : List α} {e : ε}
    (h : as.mapM f = .error e) :
    ∃ (i : Nat) (a : α), as[i]? = some a ∧ f a = .error e ∧
      ∀ j < i, ∀ c, as[j]? = some c → ∃ b, f c = .ok b := by
  induction as with
  | nil => cases h
  | cons a as ih =>
    rw [List.mapM_cons, bind_eq_error_iff] at h
    rcases h with h | ⟨b, hb, h⟩
    · exact ⟨0, a, rfl, h, fun j hj => absurd hj (Nat.not_lt_zero j)⟩
    · rcases bind_eq_error_iff.1 h with h | ⟨bs, -, h⟩
      · obtain ⟨i, c, hc, hfail, hbefore⟩ := ih h
        refine ⟨i + 1, c, hc, hfail, fun j hj d hd => ?_⟩
        cases j with
        | zero => exact ⟨b, Option.some.inj hd ▸ hb⟩
        | succ j => exact hbefore j (Nat.lt_of_succ_lt_succ hj) d hd
      · cases h

/-- Each result of a list of steps is that of the step at its place. -/
theorem getElem?_of_mapM_eq_ok {f : α → Except ε β} {as : List α} {bs : List β}
    (h : as.mapM f = .ok bs) {i : Nat} {a : α} (ha : as[i]? = some a) :
    ∃ b, bs[i]? = some b ∧ f a = .ok b := by
  induction as generalizing bs i with
  | nil => cases ha
  | cons c as ih =>
    rw [List.mapM_cons, bind_eq_ok_iff] at h
    obtain ⟨b, hb, h⟩ := h
    obtain ⟨cs, hcs, h⟩ := bind_eq_ok_iff.1 h
    obtain rfl := Except.ok.inj h
    cases i with
    | zero =>
      obtain rfl := Option.some.inj ha
      exact ⟨b, rfl, hb⟩
    | succ i => exact ih hcs ha

/-- Where a step fails, the list of steps fails in the same way, or in that of a step before. -/
theorem mapM_eq_error_of_getElem? {f : α → Except ε β} {as : List α} {i : Nat} {a : α} {e : ε}
    (ha : as[i]? = some a) (hfail : f a = .error e) :
    as.mapM f = .error e ∨
      ∃ j < i, ∃ b e', as[j]? = some b ∧ f b = .error e' ∧ as.mapM f = .error e' := by
  cases hmap : as.mapM f with
  | ok bs =>
    obtain ⟨b, -, hb⟩ := getElem?_of_mapM_eq_ok hmap ha
    cases hfail.symm.trans hb
  | error e' =>
    obtain ⟨j, b, hb, hfirst, hbefore⟩ := exists_of_mapM_eq_error hmap
    rcases Nat.lt_trichotomy j i with hlt | rfl | hgt
    · exact .inr ⟨j, hlt, b, e', hb, hfirst, rfl⟩
    · obtain rfl := Option.some.inj (ha.symm.trans hb)
      rw [Except.error.inj (hfirst.symm.trans hfail)]
      exact .inl rfl
    · obtain ⟨c, hc⟩ := hbefore i hgt a ha
      cases hfail.symm.trans hc

theorem length_of_mapM_eq_ok {f : α → Except ε β} {as : List α} {bs : List β}
    (h : as.mapM f = .ok bs) : bs.length = as.length := by
  induction as generalizing bs with
  | nil =>
    obtain rfl := Except.ok.inj h
    rfl
  | cons a as ih =>
    rw [List.mapM_cons, bind_eq_ok_iff] at h
    obtain ⟨b, -, h⟩ := h
    obtain ⟨cs, hcs, h⟩ := bind_eq_ok_iff.1 h
    obtain rfl := Except.ok.inj h
    rw [List.length_cons, List.length_cons, ih hcs]

/-! ## Kinds of errors -/

/-- If the result is wrong, it is so in a way of the kind `P`. -/
def FailsIn (P : ε → Prop) (x : Except ε α) : Prop := ∀ e, x = .error e → P e

variable {P : ε → Prop}

theorem failsIn_ok (a : α) : FailsIn P (.ok a) := nofun

theorem failsIn_error {e : ε} (h : P e) : FailsIn P (.error e : Except ε α) := by
  rintro _ ⟨⟩
  exact h

theorem FailsIn.bind {f : α → Except ε β} (hx : x.FailsIn P) (hf : ∀ a, (f a).FailsIn P) :
    (x >>= f).FailsIn P := by
  intro e h
  rcases bind_eq_error_iff.1 h with h | ⟨a, -, h⟩
  · exact hx e h
  · exact hf a e h

theorem FailsIn.map {f : α → β} (hx : x.FailsIn P) : (x.map f).FailsIn P :=
  fun e h => hx e (map_eq_error_iff.1 h)

theorem FailsIn.mapM {f : α → Except ε β} {as : List α} (hf : ∀ a ∈ as, (f a).FailsIn P) :
    (as.mapM f).FailsIn P := by
  intro e h
  obtain ⟨i, a, ha, hfail, -⟩ := exists_of_mapM_eq_error h
  exact hf a (List.mem_of_getElem? ha) e hfail

/-! ## Other errors for errors -/

section MapError

variable {ε' : Type} (g : ε → ε')

@[simp] theorem mapError_ok (a : α) : (ok a : Except ε α).mapError g = .ok a := rfl

@[simp] theorem mapError_error (e : ε) : (error e : Except ε α).mapError g = .error (g e) := rfl

@[simp] theorem mapError_bind (x : Except ε α) (f : α → Except ε β) :
    (x >>= f).mapError g = x.mapError g >>= fun a => (f a).mapError g := by
  cases x <;> rfl

@[simp] theorem mapError_map (x : Except ε α) (f : α → β) :
    (x.map f).mapError g = (x.mapError g).map f := by
  cases x <;> rfl

end MapError

end Except
