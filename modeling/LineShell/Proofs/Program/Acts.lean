/-
Module: LineShell.Proofs.Program.Acts
Purpose: What a script does is a list of deeds: however often it has to wait, and whatever
  happens to its stage meanwhile, it does all of them once and in order.
Main exports: Deed, Script.deedsUntil, Script.allDeeds, Script.ending, Start.deeds,
  Start.called, Stage.carryOutAll, Script.stage_play, Start.stage_play, Script.Played,
  Script.Played.deeds_eq, Script.played_allDeeds, Start.Played, Start.Played.deeds_eq,
  Start.played_allDeeds
-/
import LineShell.Program.Script

namespace LineShell

/-! ### Deeds -/

/-- What is done between two waits: an act, or the start of another strand. -/
inductive Deed where
  | act (act : Act)
  | spawn (shares : Bool) (body : Script)
deriving DecidableEq, Repr

namespace Deed

/-- The status that a deed sends. -/
def status? : Deed → Option Int
  | .act (.send status) | .act (.sendReporting status) => some status
  | _ => none

/-- The function of the host that a deed calls. -/
def call? : Deed → Option HostCall
  | .act (.call given) => some given
  | _ => none

/-- The text that a deed has no other effect than to write. -/
def text? : Deed → Option Text
  | .act (.write text) => some text
  | _ => none

end Deed

namespace Stage

/-- The effect of one deed. -/
def carryOut (stage : Stage) : Deed → Stage
  | .act act => stage.perform act
  | .spawn shares body => stage.spawn shares body

/-- Does deeds in order. -/
def carryOutAll (stage : Stage) (deeds : List Deed) : Stage :=
  deeds.foldl carryOut stage

variable (stage : Stage) (status : Int)

/-- To send the signal decides it, if it is held here and was not decided. -/
theorem send_cases : (stage.send status).2 = stage ∨
    (stage.holds = true ∧ stage.completion = .pending ∧ (stage.send status).2 =
      { stage with completion := .sent status, stirs := stage.stirs ++ [.decided] }) := by
  obtain ⟨console, completion, holds, shared, calls, stirs⟩ := stage
  cases holds with
  | false => exact .inl rfl
  | true =>
      cases completion with
      | pending => exact .inr ⟨rfl, rfl, rfl⟩
      | sent | abandoned | revoked => exact .inl rfl

/-- To let go of the signal decides it, if nobody else holds it and it was not decided. -/
theorem release_cases :
    (stage.release = { stage with holds := false } ∧
      (stage.completion = .pending → stage.holds = true → stage.shared = true)) ∨
    (stage.holds = true ∧ stage.shared = false ∧ stage.completion = .pending ∧ stage.release =
      { stage with
        completion := .abandoned, holds := false, stirs := stage.stirs ++ [.decided] }) := by
  obtain ⟨console, completion, holds, shared, calls, stirs⟩ := stage
  cases last : (holds && !shared) with
  | false =>
      refine .inl ⟨?_, fun _ => ?_⟩
      · simp [release, last]
      · simpa using last
  | true =>
      obtain ⟨rfl, rfl⟩ : holds = true ∧ shared = false := by simpa using last
      cases completion with
      | pending => exact .inr ⟨rfl, rfl, rfl, rfl⟩
      | sent | abandoned | revoked => exact .inl ⟨rfl, nofun⟩

/-- What sending makes of the signal depends on nothing but who holds it. -/
theorem completion_send : (stage.send status).2.completion =
    if stage.holds then (stage.completion.send status).2 else stage.completion := by
  rw [send]
  split <;> rfl

/-- To send the signal neither calls nor writes anything. -/
theorem send_silent : (stage.send status).2.calls = stage.calls ∧
    (stage.send status).2.console = stage.console := by
  rcases stage.send_cases status with same | ⟨-, -, same⟩ <;> rw [same] <;> exact ⟨rfl, rfl⟩

end Stage

/-! ### The deeds of a script -/

namespace Script

/-- The deeds of a script up to the first wait that it does not pass. -/
def deedsUntil (passes : Wait → Bool) : Script → List Deed
  | .stop _ => []
  | .perform act next => .act act :: next.deedsUntil passes
  | .spawn shares body next => .spawn shares body :: next.deedsUntil passes
  | .await wait next _ => if passes wait then next.deedsUntil passes else []

/-- The deeds of a script up to its end, if nobody cancels it. -/
def allDeeds (script : Script) : List Deed :=
  script.deedsUntil fun _ => true

/-- Where a script stops that is played. -/
def pauseAt (isOpen : Text → Bool) : Script → Pause
  | .stop ending => .ended ending
  | .perform _ next | .spawn _ _ next => next.pauseAt isOpen
  | .await (.gate name) next interrupted =>
      if isOpen name then next.pauseAt isOpen else .waiting (.gate name) next interrupted
  | .await (.sleep seconds) next interrupted => .waiting (.sleep seconds) next interrupted

/-- How a script ends if nobody cancels it. -/
def ending : Script → Ending
  | .stop ending => ending
  | .perform _ next | .spawn _ _ next | .await _ next _ => next.ending

end Script

/-- The waits that a strand passes without stopping. -/
def passesGates (isOpen : Text → Bool) : Wait → Bool
  | .gate name => isOpen name
  | .sleep _ => false

namespace Start

/-- The deeds inside a call. -/
def deeds : Start → List Deed
  | .stop _ | .defer _ _ => []
  | .perform act next => .act act :: next.deeds
  | .spawn shares body next => .spawn shares body :: next.deeds

/-- What a call comes to. -/
def called : Start → Called
  | .stop ending => .ended ending
  | .perform _ next | .spawn _ _ next => next.called
  | .defer shares body => .deferred shares body

end Start

/-- What is to be done behind a call. -/
def Called.deeds : Called → List Deed
  | .ended _ => []
  | .deferred _ body => body.allDeeds

/-- How a call ends, or what was deferred in it. -/
def Called.ending : Called → Ending
  | .ended ending => ending
  | .deferred _ body => body.ending

/-! ### What playing leaves on a stage -/

/-- Playing a script does its deeds up to the first wait. -/
theorem Script.stage_play (isOpen : Text → Bool) (script : Script) (stage : Stage) :
    (script.play isOpen stage).2 =
      stage.carryOutAll (script.deedsUntil (passesGates isOpen)) := by
  induction script generalizing stage with
  | stop ending => rfl
  | perform act next ih => exact ih _
  | spawn shares body next _ ih => exact ih _
  | await wait next interrupted ih _ =>
      cases wait with
      | gate name =>
          rw [play, deedsUntil, passesGates]
          split
          · exact ih stage
          · rfl
      | sleep seconds => rfl

/-- Where a script stops does not depend on what the program finds. -/
theorem Script.pause_play (isOpen : Text → Bool) (script : Script) (stage : Stage) :
    (script.play isOpen stage).1 = script.pauseAt isOpen := by
  induction script generalizing stage with
  | stop ending => rfl
  | perform act next ih => exact ih _
  | spawn shares body next _ ih => exact ih _
  | await wait next interrupted ih _ =>
      cases wait with
      | gate name =>
          rw [play, pauseAt]
          split
          · exact ih stage
          · rfl
      | sleep seconds => rfl

theorem Script.play_eq (isOpen : Text → Bool) (script : Script) (stage : Stage) :
    script.play isOpen stage =
      (script.pauseAt isOpen, stage.carryOutAll (script.deedsUntil (passesGates isOpen))) :=
  Prod.ext (script.pause_play isOpen stage) (script.stage_play isOpen stage)

/-- Inside a call nothing is waited for. -/
theorem Start.stage_play (start : Start) (stage : Stage) :
    (start.play stage).2 = stage.carryOutAll start.deeds := by
  induction start generalizing stage with
  | stop | defer => rfl
  | perform act next ih => exact ih _
  | spawn shares body next ih => exact ih _

/-- What a call comes to does not depend on what the program finds. -/
theorem Start.called_play (start : Start) (stage : Stage) :
    (start.play stage).1 = start.called := by
  induction start generalizing stage with
  | stop | defer => rfl
  | perform act next ih => exact ih _
  | spawn shares body next ih => exact ih _

theorem Start.play_eq (start : Start) (stage : Stage) :
    start.play stage = (start.called, stage.carryOutAll start.deeds) :=
  Prod.ext (start.called_play stage) (start.stage_play stage)

/-! ### Playing in parts -/

/-- How a script that was played ends, or will. -/
def Pause.ending : Pause → Ending
  | .ended ending => ending
  | .waiting _ next _ => next.ending

/-- What a script that was played has still to do. -/
def Pause.deeds : Pause → List Deed
  | .ended _ => []
  | .waiting _ next _ => next.allDeeds

theorem Script.ending_play (isOpen : Text → Bool) (script : Script) (stage : Stage) :
    (script.play isOpen stage).1.ending = script.ending := by
  induction script generalizing stage with
  | stop ending => rfl
  | perform act next ih => exact ih _
  | spawn shares body next _ ih => exact ih _
  | await wait next interrupted ih _ =>
      cases wait with
      | gate name =>
          rw [play]
          split
          · exact ih stage
          · rfl
      | sleep seconds => rfl

/-- What has been done and what has still to be done are all deeds, in order. -/
theorem Script.deeds_play (isOpen : Text → Bool) (script : Script) (stage : Stage) :
    script.deedsUntil (passesGates isOpen) ++ (script.play isOpen stage).1.deeds =
      script.allDeeds := by
  induction script generalizing stage with
  | stop ending => rfl
  | perform act next ih => exact congrArg (.act act :: ·) (ih _)
  | spawn shares body next _ ih => exact congrArg (.spawn shares body :: ·) (ih _)
  | await wait next interrupted ih _ =>
      cases wait with
      | gate name =>
          rw [play, deedsUntil, passesGates]
          split
          · exact ih stage
          · rfl
      | sleep seconds => rfl

namespace Script

variable {script : Script} {deeds : List Deed} {ending : Ending}

/-- A script has been played to its end, in one part or in several.  Each part goes up to a
wait or to the end, on whatever stage it finds, with whatever gates are open then.  The deeds of
a part are those by which it has changed the stage. -/
inductive Played : Script → List Deed → Ending → Prop where
  | ended {script : Script} {isOpen : Text → Bool} {stage after : Stage} {ending : Ending}
      (plays : script.play isOpen stage = (.ended ending, after)) :
      Played script (script.deedsUntil (passesGates isOpen)) ending
  | resumed {script next interrupted : Script} {isOpen : Text → Bool} {stage after : Stage}
      {wait : Wait} {deeds : List Deed} {ending : Ending}
      (plays : script.play isOpen stage = (.waiting wait next interrupted, after))
      (later : Played next deeds ending) :
      Played script (script.deedsUntil (passesGates isOpen) ++ deeds) ending

/-- However a script is played in parts, it does all its deeds in order and ends as it does. -/
theorem Played.deeds_eq (played : script.Played deeds ending) :
    deeds = script.allDeeds ∧ ending = script.ending := by
  induction played with
  | @ended script isOpen stage after ending plays =>
      have whole := script.deeds_play isOpen stage
      have ends := script.ending_play isOpen stage
      rw [plays] at whole ends
      exact ⟨(List.append_nil _).symm.trans whole, ends⟩
  | @resumed script next interrupted isOpen stage after wait deeds ending plays later ih =>
      have whole := script.deeds_play isOpen stage
      have ends := script.ending_play isOpen stage
      rw [plays] at whole ends
      obtain ⟨rfl, rfl⟩ := ih
      exact ⟨whole, ends⟩

/-- A script can be played to its end if what is left at its first wait can. -/
theorem played_of_rest (isOpen : Text → Bool) (stage : Stage)
    (rest : ∀ wait next interrupted after,
      script.play isOpen stage = (.waiting wait next interrupted, after) →
        next.Played next.allDeeds next.ending) : script.Played script.allDeeds script.ending := by
  have whole := script.deeds_play isOpen stage
  have ends := script.ending_play isOpen stage
  rcases plays : script.play isOpen stage with ⟨pause, after⟩
  rw [plays] at whole ends
  rw [← whole, ← ends]
  cases pause with
  | ended ending =>
      rw [Pause.deeds, List.append_nil]
      exact .ended plays
  | waiting wait next interrupted => exact .resumed plays (rest wait next interrupted after plays)

/-- Every script can be played to its end. -/
theorem played_allDeeds (script : Script) : script.Played script.allDeeds script.ending := by
  -- Not every part of a script is what is left at a wait, so the induction is about what is.
  suffices rest : ∀ (isOpen : Text → Bool) (stage : Stage) wait next interrupted after,
      script.play isOpen stage = (.waiting wait next interrupted, after) →
        next.Played next.allDeeds next.ending from
    played_of_rest (fun _ => true) { console := {} } (rest _ _)
  induction script with
  | stop ending =>
      intro isOpen stage wait next interrupted after plays
      cases plays
  | perform act next ih => exact fun isOpen stage => ih isOpen _
  | spawn shares body next _ ih => exact fun isOpen stage => ih isOpen _
  | await wait next interrupted ih _ =>
      intro isOpen stage wait' next' interrupted' after plays
      have whole := played_of_rest isOpen stage (ih isOpen stage)
      cases wait with
      | gate name =>
          rw [play] at plays
          split at plays
          · exact ih isOpen stage _ _ _ _ plays
          · cases plays
            exact whole
      | sleep seconds =>
          cases plays
          exact whole

end Script

/-! ### Calls -/

namespace Start

variable {start : Start} {deeds : List Deed} {ending : Ending}

/-- A program has been called and played to its end: it has ended inside its call, or what it
has deferred has been played. -/
inductive Played (start : Start) : List Deed → Ending → Prop where
  | ended {stage after : Stage} {ending : Ending}
      (plays : start.play stage = (.ended ending, after)) : Played start start.deeds ending
  | deferred {stage after : Stage} {shares : Bool} {body : Script} {deeds : List Deed}
      {ending : Ending} (plays : start.play stage = (.deferred shares body, after))
      (later : body.Played deeds ending) : Played start (start.deeds ++ deeds) ending

/-- All that a program does that is called, inside its call and afterwards. -/
def allDeeds (start : Start) : List Deed :=
  start.deeds ++ start.called.deeds

/-- However a program is played, it does all its deeds in order and ends as it does. -/
theorem Played.deeds_eq (played : start.Played deeds ending) :
    deeds = start.allDeeds ∧ ending = start.called.ending := by
  cases played with
  | @ended stage _ _ plays =>
      have called := start.called_play stage
      rw [plays] at called
      rw [allDeeds, ← called]
      exact ⟨(List.append_nil _).symm, rfl⟩
  | @deferred stage _ _ _ _ _ plays later =>
      have called := start.called_play stage
      rw [plays] at called
      obtain ⟨rfl, rfl⟩ := later.deeds_eq
      rw [allDeeds, ← called]
      exact ⟨rfl, rfl⟩

/-- Every program can be played to its end. -/
theorem played_allDeeds (start : Start) : start.Played start.allDeeds start.called.ending := by
  have plays := start.play_eq { console := {} }
  rw [allDeeds]
  cases called : start.called with
  | ended ending =>
      rw [called] at plays
      rw [Called.deeds, List.append_nil]
      exact .ended plays
  | deferred shares body =>
      rw [called] at plays
      exact .deferred plays body.played_allDeeds

end Start

end LineShell
