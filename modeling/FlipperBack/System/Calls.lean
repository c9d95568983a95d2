import FlipperBack.System.Step

/-!
# The calls of a step

`Event.calls` lists the calls that a step makes, in order, each with the world
it leaves. What is preserved by every call that the programs can make, given
what the calls before answered, is preserved by the step and holds before each of
its calls (`step_given`).
-/

namespace FlipperBack

open Effects Python

/-- The calls of a step, each with the world it leaves. -/
def Event.calls (borneId : String) (w : World) (e : Event) : List (Op × World) :=
  match e.request with
  | .countdown id =>
      match w.task? id with
      | some t => (countdownFrom t.broadcaster t.sessionId t.remaining).logUntil Op.isSleep
          (handle { task := some t.id }) w
      | none => []
  | _ => (e.program borneId).log (handle { pg := e.pg }) w

section Given

variable {borneId : String} {A : (op : Op) → Except Exc op.Res → Prop} {P : Op → Prop}
  {I : World → Prop} {w : World} {e : Event}

/-- A stretch of a countdown preserves what its calls preserve, where the tasks
do not matter. -/
theorem stretch_given (hanswers : ∀ ctx op w, I w → A op (handle ctx op w).1)
    (hcall : ∀ ctx op w, P op → I w → I (handle ctx op w).2)
    (htasks : ∀ w tasks, I w → I { w with tasks }) {t : CountdownTask}
    (hp : (countdownFrom t.broadcaster t.sessionId t.remaining).AllGiven A P) (hw : I w) :
    I (stretch t w) ∧
      ∀ c ∈ (countdownFrom t.broadcaster t.sessionId t.remaining).logUntil Op.isSleep
        (handle { task := some t.id }) w,
          P c.1 ∧ ∃ ctx w', I w' ∧ c.2 = (handle ctx c.1 w').2 := by
  obtain ⟨hrun, hlog⟩ := Prog.runUntil_invariant Op.isSleep
    (hanswers { task := some t.id }) (hcall { task := some t.id }) hp hw
  refine ⟨?_, fun c hc => ⟨(hlog c hc).1, _, (hlog c hc).2⟩⟩
  unfold stretch
  dsimp only
  split
  · exact htasks _ _ hrun
  · exact htasks _ _ hrun

/-- A step preserves what its calls preserve, where the tasks do not matter. -/
theorem step_given (hanswers : ∀ ctx op w, I w → A op (handle ctx op w).1)
    (hcall : ∀ ctx op w, P op → I w → I (handle ctx op w).2)
    (htasks : ∀ w tasks, I w → I { w with tasks })
    (hcountdown : ∀ broadcaster sessionId values,
      (countdownFrom broadcaster sessionId values).AllGiven A P)
    (hp : (e.program borneId).AllGiven A P) (hw : I w) :
    I (step borneId w e) ∧
      ∀ c ∈ e.calls borneId w, P c.1 ∧ ∃ ctx w', I w' ∧ c.2 = (handle ctx c.1 w').2 := by
  have hrun := Prog.runUntil_invariant (fun _ => false) (hanswers { pg := e.pg })
    (hcall { pg := e.pg }) hp hw
  rw [Prog.runUntil_never] at hrun
  obtain ⟨request, clock, uuid, pg⟩ := e
  cases request with
  | countdown id =>
      simp only [step, Event.calls]
      cases w.task? id with
      | none => exact ⟨hw, by simp⟩
      | some t => exact stretch_given hanswers hcall htasks (hcountdown _ _ _) hw
  | _ => exact ⟨hrun.1, fun c hc => ⟨(hrun.2 c hc).1, _, (hrun.2 c hc).2⟩⟩

end Given

end FlipperBack
