import WordMachine.Proofs.Machine.Trace

/-!
# Halting

An instruction that stops the machine does nothing else: the program counter goes back to it, and
the next step finds it again (`Machine.step_of_snd_eq_false`). A machine that has stopped is
therefore where all its further steps leave it (`Machine.step_after_of_snd_eq_false`).

A run is its steps up to the first that stops the machine, or as many of them as it may take
(`Machine.run_of_stopsAfter`, `Machine.run_of_goes_on`). So a run can be cut in two anywhere: what
the second part finds is either the machine in the middle of its steps, or one that has stopped and
stays so (`Machine.stopped_for_good_and_run_add`).
-/

namespace WordMachine.Machine

variable {m : Machine} {j k n : Nat}

/-! ## A machine that has stopped -/

/-- The machine, not running. -/
def stopped (m : Machine) : Machine := { m with cpu := { m.cpu with running := false } }

/-- Putting the program counter back undoes what the fetch has done to the registers. -/
theorem stopAt_advance (m : Machine) : m.advance.stopAt m.cpu.pc = m.stopped := by
  have hregisters : (m.advance.cpu.setPc m.cpu.pc).registers = m.cpu.registers := by
    refine Vector.ext fun i hi => ?_
    simp only [Cpu.setPc, Cpu.set, advance, Vector.getElem_set]
    split
    · next hpc =>
      subst hpc
      rfl
    · rfl
  rw [stopAt, stopped, advance]
  exact congrArg (fun registers => Machine.mk { m.cpu with registers, running := false } m.memory)
    hregisters

/-- A step that stops the machine changes nothing but that it does not run. -/
theorem step_of_snd_eq_false (h : m.step.2 = false) : m.step = (m.stopped, false) := by
  have hstops : m.fetch.stops = true := by simpa [snd_step] using h
  rw [step_of_stops hstops, stopAt_advance]

theorem snd_step_stopped (h : m.step.2 = false) : m.stopped.step.2 = false := by
  rw [snd_step] at h ⊢
  exact h

/-- A machine that has stopped stays as it is. -/
theorem step_stopped (h : m.step.2 = false) : m.stopped.step = (m.stopped, false) :=
  step_of_snd_eq_false (snd_step_stopped h)

theorem after_stopped (h : m.step.2 = false) (n : Nat) : m.stopped.after n = m.stopped := by
  induction n with
  | zero => rfl
  | succ n ih => rw [after_succ, ih, step_stopped h]

theorem step_after_of_snd_eq_false (h : m.step.2 = false) (n : Nat) :
    (m.step.1.after n).step = (m.step.1, false) := by
  rw [step_of_snd_eq_false h, after_stopped h, step_stopped h]

/-! ## Runs as steps -/

/-- The step behind `k` others stops the machine, and none of these does. -/
def StopsAfter (m : Machine) (k : Nat) : Prop :=
  (m.after k).step.2 = false ∧ ∀ j < k, (m.after j).step.2 = true

/-- Of so many steps, all go on or one is the first that stops the machine. -/
theorem goes_on_or_stopsAfter (m : Machine) (n : Nat) :
    (∀ k < n, (m.after k).step.2 = true) ∨ ∃ k < n, m.StopsAfter k := by
  induction n with
  | zero => exact .inl fun k hk => absurd hk (Nat.not_lt_zero k)
  | succ n ih =>
    rcases ih with hbefore | ⟨k, hk, hstops⟩
    · cases hstep : (m.after n).step.2 with
      | true => exact .inl (Nat.forall_lt_succ_right.2 ⟨hbefore, hstep⟩)
      | false => exact .inr ⟨n, Nat.lt_succ_self n, hstep, hbefore⟩
    · exact .inr ⟨k, Nat.lt_succ_of_lt hk, hstops⟩

theorem after_add (m : Machine) (j k : Nat) : m.after (j + k) = (m.after j).after k := by
  rw [Nat.add_comm]
  exact Function.iterate_add_apply _ k j m

/-- Steps that all go on are taken one after another. -/
theorem runFrom_add (taken limit : Nat) (h : ∀ k < n, (m.after k).step.2 = true) :
    m.runFrom taken (n + limit) = (m.after n).runFrom (taken + n) limit := by
  induction n generalizing taken limit with
  | zero => rw [Nat.zero_add, after_zero, Nat.add_zero]
  | succ n ih =>
    obtain ⟨hbefore, hlast⟩ := Nat.forall_lt_succ_right.1 h
    have hstep : (m.after n).step = (m.after (n + 1), true) := by
      rw [after_succ, ← hlast]
    rw [Nat.add_right_comm, Nat.add_assoc, ih taken (limit + 1) hbefore, runFrom, hstep,
      Nat.add_assoc]

theorem run_of_goes_on (h : ∀ k < n, (m.after k).step.2 = true) :
    m.run n = (m.after n, ⟨n, false⟩) := by
  rw [run, ← Nat.add_zero n, runFrom_add 0 0 h, runFrom, Nat.zero_add, Nat.add_zero]

/-- A run ends with the step that stops the machine. -/
theorem run_of_stopsAfter (h : m.StopsAfter k) (hk : k < n) :
    m.run n = (m.after (k + 1), ⟨k + 1, true⟩) := by
  obtain ⟨limit, rfl⟩ := Nat.exists_eq_add_of_lt hk
  have hstep : (m.after k).step = (m.after (k + 1), false) := by
    rw [after_succ, ← h.1]
  rw [run, Nat.add_assoc, runFrom_add 0 (limit + 1) h.2, runFrom, hstep, Nat.zero_add]

theorem steps_run_le (m : Machine) (n : Nat) : (m.run n).2.steps ≤ n := by
  rcases m.goes_on_or_stopsAfter n with hgoes | ⟨k, hk, hstops⟩
  · exact Nat.le_of_eq (congrArg (·.2.steps) (run_of_goes_on hgoes))
  · rw [run_of_stopsAfter hstops hk]
    exact hk

/-! ## Runs one behind the other -/

/-- Behind steps that go on, a run does what it does from the start. -/
theorem run_add_of_goes_on (h : ∀ i < j, (m.after i).step.2 = true) (k : Nat) :
    m.run (j + k) = (((m.after j).run k).1,
      ⟨j + ((m.after j).run k).2.steps, ((m.after j).run k).2.halted⟩) := by
  have hmany : ∀ i, (∀ l < i, ((m.after j).after l).step.2 = true) →
      ∀ l < j + i, (m.after l).step.2 = true := by
    intro i hi l hl
    by_cases hlj : l < j
    · exact h l hlj
    · obtain ⟨d, rfl⟩ := Nat.exists_eq_add_of_le (Nat.not_lt.1 hlj)
      rw [after_add]
      exact hi d (by omega)
  rcases (m.after j).goes_on_or_stopsAfter k with hgoes | ⟨i, hi, hstops⟩
  · rw [run_of_goes_on hgoes, run_of_goes_on (hmany k hgoes), after_add]
  · have hfirst : m.StopsAfter (j + i) := ⟨by rw [after_add]; exact hstops.1, hmany i hstops.2⟩
    rw [run_of_stopsAfter hstops hi, run_of_stopsAfter hfirst (by omega), Nat.add_assoc, after_add]

/-- A run from where the machine has stopped is one step, if it may take one. -/
theorem run_stopped (h : m.step.2 = false) (k : Nat) :
    m.stopped.run k = (m.stopped, if k = 0 then ⟨0, false⟩ else ⟨1, true⟩) := by
  cases k with
  | zero => rfl
  | succ k =>
    have hfirst : m.stopped.StopsAfter 0 :=
      ⟨snd_step_stopped h, fun j hj => absurd hj (Nat.not_lt_zero j)⟩
    rw [run_of_stopsAfter hfirst (Nat.succ_pos k), after_stopped h, if_neg (Nat.succ_ne_zero k)]

theorem after_succ_of_stopsAfter (h : m.StopsAfter k) : m.after (k + 1) = (m.after k).stopped := by
  rw [after_succ, step_of_snd_eq_false h.1]

/-- A machine that stops has changed nothing but that it does not run, and stays so, whatever
    further steps are taken. Two runs one behind the other lead to where one run of both lengths
    leads. If the first did not stop the machine, it has taken all its steps and the two tell
    together what the one run tells; if it did, the one run tells the same, and the second stops in
    its first step. A run is its steps up to the first that stops the machine, or all that it may
    take if none does. -/
theorem stopped_for_good_and_run_add (m : Machine) :
    (m.step.2 = false →
      m.step.1 = { m with cpu := { m.cpu with running := false } } ∧
      ∀ n, (m.step.1.after n).step = (m.step.1, false)) ∧
    (∀ j k,
      ((m.run j).1.run k).1 = (m.run (j + k)).1 ∧
      ((m.run j).2.halted = false →
        (m.run j).2.steps = j ∧
        (m.run (j + k)).2.steps = j + ((m.run j).1.run k).2.steps ∧
        (m.run (j + k)).2.halted = ((m.run j).1.run k).2.halted) ∧
      ((m.run j).2.halted = true →
        (m.run (j + k)).2 = (m.run j).2 ∧ (1 ≤ k → ((m.run j).1.run k).2 = ⟨1, true⟩))) ∧
    (∀ n, (m.run n).2.steps ≤ n ∧
      (∀ k < n, m.StopsAfter k → m.run n = (m.after (k + 1), ⟨k + 1, true⟩)) ∧
      ((∀ k < n, (m.after k).step.2 = true) → m.run n = (m.after n, ⟨n, false⟩))) := by
  refine ⟨fun h => ⟨congrArg Prod.fst (step_of_snd_eq_false h), step_after_of_snd_eq_false h⟩,
    fun j k => ?_, fun n => ⟨m.steps_run_le n, fun k hk hstops => run_of_stopsAfter hstops hk,
      run_of_goes_on⟩⟩
  rcases m.goes_on_or_stopsAfter j with hgoes | ⟨i, hi, hstops⟩
  · rw [run_of_goes_on hgoes, run_add_of_goes_on hgoes]
    refine ⟨rfl, fun _ => ⟨rfl, rfl, rfl⟩, fun hhalted => ?_⟩
    cases hhalted
  · rw [run_of_stopsAfter hstops hi, run_of_stopsAfter hstops (n := j + k) (by omega),
      after_succ_of_stopsAfter hstops, run_stopped hstops.1]
    refine ⟨rfl, fun hgoes => ?_, fun _ => ⟨rfl, fun hk => if_neg (by omega)⟩⟩
    cases hgoes

/-- One instruction that does nothing, and then a stop: a run of one step goes on, one of two or
    more stops the machine in the second, and runs behind that take one step each. -/
theorem stopped_for_good_and_run_add_second :
    ∃ m : Machine, (m.run 1).2.halted = false ∧ (m.run 2).2 = ⟨2, true⟩ ∧
      ((m.run 1).1.run 1).1 = (m.run 2).1 ∧ (m.run 5).2 = ⟨2, true⟩ ∧
      ((m.run 2).1.run 3).1 = (m.run 5).1 ∧ ((m.run 2).1.run 3).2 = ⟨1, true⟩ ∧
      (m.run 1).1.step.2 = false ∧ (m.run 1).1.step.1.step = ((m.run 1).1.step.1, false) := by
  obtain ⟨m, hm⟩ : ∃ m, m = (Machine.start {}).loadImage [0xFFF0] := ⟨_, rfl⟩
  have hfirst : (m.run 1).2.halted = false := by
    rw [hm]
    decide +kernel
  have hsecond : (m.run 2).2 = ⟨2, true⟩ := by
    rw [hm]
    decide +kernel
  have hstop : (m.run 1).1.step.2 = false := by
    rw [hm]
    decide +kernel
  obtain ⟨-, hruns, -⟩ := stopped_for_good_and_run_add m
  obtain ⟨hlater, hone⟩ := (hruns 2 3).2.2 (by rw [hsecond])
  have hstays := ((stopped_for_good_and_run_add (m.run 1).1).1 hstop).2 0
  exact ⟨m, hfirst, hsecond, (hruns 1 1).1, hlater.trans hsecond, (hruns 2 3).1,
    hone (by decide), hstop, hstays⟩

end WordMachine.Machine
