import WordMachine.Proofs.Machine.Frame

/-!
# Sessions with a machine

A machine is stepped, run, started anew and loaded with words, in any order (`Session.perform`).
A session remembers beside the machine what the steps have answered since the machine was started
last. A run is no more than its steps (`Session.perform_run`), so that what every step and every
other operation keeps is kept by all of them (`Session.kept_performAll`): the settings, the code
segment, which is zero because the one that a return restores always is, and whether the machine
runs, which is what the last step has answered.
-/

namespace WordMachine

/-- What can be done with a machine. -/
inductive Operation where
  | step
  | run (limit : Nat)
  | reset
  | loadImage (ws : List Word)
  | loadChanges (changes : List Change)
  | loadWords (a : Word) (ws : List Word)

/-- A machine, and what its steps have answered since it was started last. -/
structure Session where
  machine : Machine
  /-- For each step, in order, whether the machine went on. -/
  answers : List Bool

namespace Session

/-- A session with a new machine. -/
def start (settings : Settings) : Session := ⟨.start settings, []⟩

/-- The session after an operation. -/
def perform (s : Session) : Operation → Session
  | .step => ⟨s.machine.step.1, s.answers ++ [s.machine.step.2]⟩
  | .run limit =>
    ⟨(s.machine.run limit).1, s.answers ++ s.machine.answers (s.machine.run limit).2.steps⟩
  | .reset => ⟨s.machine.reset, []⟩
  | .loadImage ws => { s with machine := s.machine.loadImage ws }
  | .loadChanges changes => { s with machine := s.machine.loadChanges changes }
  | .loadWords a ws => { s with machine := (s.machine.loadWords a ws).1 }

/-- The session after operations, one after another. -/
def performAll (s : Session) (operations : List Operation) : Session :=
  operations.foldl perform s

end Session

/-! ## Runs are steps -/

namespace Machine

variable (m : Machine) (n : Nat)

@[simp] theorem answers_zero : m.answers 0 = [] := rfl

theorem answers_succ : m.answers (n + 1) = m.answers n ++ [(m.after n).step.2] := by
  rw [answers, List.range_succ, List.map_append]
  rfl

/-- A run leads to where its steps lead. -/
theorem fst_run : (m.run n).1 = m.after (m.run n).2.steps := by
  rcases m.goes_on_or_stopsAfter n with hgoes | ⟨k, hk, hstops⟩
  · rw [run_of_goes_on hgoes]
  · rw [run_of_stopsAfter hstops hk]

end Machine

namespace Session

theorem performAll_concat (s : Session) (operations : List Operation) (operation : Operation) :
    s.performAll (operations ++ [operation]) = (s.performAll operations).perform operation :=
  List.foldl_concat perform s operation operations

theorem performAll_steps (s : Session) (n : Nat) :
    s.performAll (List.replicate n .step) =
      ⟨s.machine.after n, s.answers ++ s.machine.answers n⟩ := by
  induction n with
  | zero =>
    rw [Machine.after_zero, Machine.answers_zero, List.append_nil]
    rfl
  | succ n ih =>
    rw [List.replicate_succ', performAll_concat, ih, perform, Machine.after_succ,
      Machine.answers_succ, List.append_assoc]

/-- A run is as many steps as it has taken. -/
theorem perform_run (s : Session) (limit : Nat) :
    s.perform (.run limit) =
      s.performAll (List.replicate (s.machine.run limit).2.steps .step) := by
  rw [performAll_steps, perform, Machine.fst_run]

end Session

/-! ## What operations keep -/

/-- Both the code segment and the one that a return restores are zero, like all other segments. -/
def Cpu.Unsegmented (cpu : Cpu) : Prop := cpu.segments = {} ∧ cpu.shadow.code = 0

/-- A call of the supervisor saves the code segment and a return restores it, so that neither is
    ever anything but zero if both are. -/
theorem Cpu.Effect.unsegmented {cpu cpu' : Cpu} {i : Instruction} (heffect : cpu.Effect i cpu')
    (h : cpu.Unsegmented) : cpu'.Unsegmented := by
  obtain ⟨hsegments, hcode⟩ := h
  rcases heffect with _ | _ | _ | _
  · exact ⟨hsegments, congrArg Segments.code hsegments⟩
  · refine ⟨?_, hcode⟩
    change { cpu.segments with code := cpu.shadow.code } = ({} : Segments)
    rw [hsegments, hcode]
  · exact ⟨hsegments, hcode⟩
  · exact ⟨hsegments, hcode⟩

namespace Session

variable {built : Settings} {s : Session}

/-- What every operation keeps. -/
structure Invariant (built : Settings) (s : Session) : Prop where
  settings : s.machine.cpu.settings = built
  unsegmented : s.machine.cpu.Unsegmented
  running : s.machine.cpu.running = true ↔ s.answers.getLast? = some true

theorem invariant_start (built : Settings) : (start built).Invariant built :=
  ⟨rfl, ⟨rfl, rfl⟩, iff_of_false Bool.false_ne_true nofun⟩

namespace Invariant

variable (h : s.Invariant built)

include h

theorem of_step : (s.perform .step).Invariant built := by
  have hanswer : (s.answers ++ [s.machine.step.2]).getLast? = some s.machine.step.2 :=
    List.getLast?_concat
  -- Before an instruction executes the machine is made to run, and only a stop takes that back.
  rcases s.machine.step_cases with hstop | ⟨hgo, heffect⟩
  · rw [perform, hstop]
    refine ⟨h.settings, h.unsegmented, iff_of_false Bool.false_ne_true ?_⟩
    rw [List.getLast?_concat]
    nofun
  · refine ⟨heffect.settings.trans h.settings, heffect.unsegmented h.unsegmented, ?_⟩
    rw [perform, hanswer, hgo]
    exact iff_of_true heffect.running rfl

theorem of_steps (n : Nat) : (s.performAll (List.replicate n .step)).Invariant built := by
  induction n with
  | zero => exact h
  | succ n ih =>
    rw [List.replicate_succ', performAll_concat]
    exact ih.of_step

/-- A machine that is started anew is like a new one, but for its memory. -/
theorem of_reset : (s.perform .reset).Invariant built :=
  ⟨h.settings, ⟨rfl, rfl⟩, iff_of_false Bool.false_ne_true nofun⟩

/-- Nothing of it depends on memory. -/
theorem of_memory (memory : Memory) :
    (Session.mk ⟨s.machine.cpu, memory⟩ s.answers).Invariant built :=
  ⟨h.settings, h.unsegmented, h.running⟩

theorem of_operation (operation : Operation) : (s.perform operation).Invariant built := by
  cases operation with
  | step => exact h.of_step
  | run limit =>
    rw [perform_run]
    exact h.of_steps _
  | reset => exact h.of_reset
  | loadImage ws => exact h.of_memory _
  | loadChanges changes => exact h.of_memory _
  | loadWords a ws => exact h.of_memory _

theorem of_operations (operations : List Operation) :
    (s.performAll operations).Invariant built := by
  induction operations generalizing s with
  | nil => exact h
  | cons operation operations ih => exact ih (h.of_operation operation)

end Invariant

/-- What is so of a session with a machine that was built with the settings, whatever was done. -/
structure Kept (built : Settings) (s : Session) : Prop where
  settings : s.machine.cpu.settings = built
  memory : s.machine.memory.cells.toArray.size = 0x10000
  segments : s.machine.cpu.segments = { code := 0, data := 0, stack := 0, extra := 0 }
  shadow : s.machine.cpu.shadow.code = 0
  /-- The machine runs if there has been a step since it was started, and the last one went on. -/
  running : s.machine.cpu.running = true ↔ s.answers.getLast? = some true
  reset : (s.perform .reset).machine = { cpu := .start built, memory := s.machine.memory }

/-- Whatever is done with a machine, in any order, it keeps its settings and the size of its memory,
    all of its segment registers and the saved one stay zero, it runs exactly if the last step since
    it was started went on, and starting it anew gives it the processor of a new machine and leaves
    its memory as it is. -/
theorem kept_performAll (built : Settings) (operations : List Operation) :
    ((start built).performAll operations).Kept built := by
  have h := (invariant_start built).of_operations operations
  refine ⟨h.settings, Vector.size_toArray _, h.unsegmented.1, h.unsegmented.2, h.running, ?_⟩
  rw [perform, Machine.reset, Cpu.reset, h.settings]

/-- A run over an instruction that does nothing goes on once and stops then, and the answers are
    forgotten when the machine is started anew. -/
example :
    ((start {}).performAll [.loadWords 0 [0xFFF0], .run 5]).answers = [true, false] ∧
      ((start {}).performAll [.loadWords 0 [0xFFF0], .run 1, .reset]).answers = [] := by
  decide +kernel

end Session

end WordMachine
