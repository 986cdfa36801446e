/-
Module: LineShell.Proofs.Program.Delivery
Purpose: The program that fetches a URL writes the body line for line, or one message, and
  signals exactly once that it is done, whatever the fetch comes to.
Main exports: LineForLine, Curl.url?, Curl.body?, Curl.Refuses, Curl.Delivers, Curl.course,
  Curl.lineForLine_wholeLines, Curl.reports_script, delivers_line_for_line
-/
import LineShell.Proofs.Program.Acts
import LineShell.Proofs.Terminal.Written
import LineShell.Proofs.Text.LineEnds

namespace LineShell

/-!
Whatever a fetch comes to, the program takes one of three ways: it writes a body, with one more
line end if the last line has none, or it writes the message of a failure, or it writes that no
URL was given.  All three are one list of deeds with other texts and another status in it, and
what the deeds leave on a stage is told once for that list.  Waiting is no deed, so it does not
matter where the program has to stop.
-/

/-! ### What is delivered -/

/-- A text that delivers a body: it ends with the end of a line, every line feed in it has its
carriage return, and without these returns it is the body without its own, with a line feed
behind it only if there is none. -/
structure LineForLine (body written : Text) : Prop where
  ended : lineEnd <:+ written
  returned : written.Returned
  lines : written.replaceAll lineEnd ['\n'] = body.replaceAll lineEnd ['\n'] ++
    if (body.replaceAll lineEnd ['\n']).getLast? = some '\n' then [] else ['\n']

namespace Curl

/-- The URL that is asked for: the first argument, if it is plain text. -/
def url? : List Argument → Option Text
  | .text url :: _ => some url
  | _ => none

/-- The body that a fetch returns. -/
def returned? : FetchOutcome → Option Text
  | .text body => some body
  | .bytes bytes => some (Utf8.decode bytes)
  | .failed _ | .cancelled => none

/-- The body that there is to deliver: one is asked for, and the fetch returns it. -/
def body? (fetch : Fetch) (arguments : List Argument) : Option Text :=
  (url? arguments).bind fun url => returned? (fetch url).outcome

/-- Why there is nothing to deliver, in the words of the message. -/
inductive Refuses (fetch : Fetch) (arguments : List Argument) : Text → Prop where
  | unasked (none : url? arguments = none) : Refuses fetch arguments "No URL is provided."
  | failed {url : Text} {fault : Fault} (asked : url? arguments = some url)
      (failed : (fetch url).outcome = .failed fault) (some : fault.message ≠ []) :
      Refuses fetch arguments fault.message
  | silent {url : Text} {fault : Fault} (asked : url? arguments = some url)
      (failed : (fetch url).outcome = .failed fault) (none : fault.message = []) :
      Refuses fetch arguments "connection failed"

/-- What the deeds of the program come to.  The URL is fetched once if one is asked for, and
nothing is fetched otherwise; one status is sent, success if there is a body; and what is
written is the body line for line or one message with the end of a line.  Nothing else comes of
it: a stage on which the deeds are done has these calls, this signal and this record more. -/
structure Delivers (fetch : Fetch) (arguments : List Argument) (deeds : List Deed)
    (status : Int) : Prop where
  fetches : deeds.filterMap Deed.call? = (url? arguments).toList.map .fetch
  sends : deeds.filterMap Deed.status? = [status]
  succeeds : status = statusSuccess ↔ (body? fetch arguments).isSome = true
  body : ∀ body ∈ body? fetch arguments, LineForLine body (deeds.filterMap Deed.text?).flatten
  message : body? fetch arguments = none → ∃ message, Refuses fetch arguments message ∧
    message ≠ [] ∧ deeds.filterMap Deed.text? = [message ++ lineEnd]
  performed : ∀ stage : Stage,
    let after := stage.carryOutAll deeds
    after.calls = stage.calls ++ deeds.filterMap Deed.call? ∧
      after.completion = (stage.send status).2.completion ∧
      after.console.terminal.recorded =
        stage.console.terminal.recorded ++ (deeds.filterMap Deed.text?).flatten

variable {fetch : Fetch} {arguments : List Argument} {body : Text}

/-! ### Bodies -/

/-- The body with line feeds only, and one at its end. -/
def wholeLines (body : Text) : Text :=
  unixLines body ++ if (unixLines body).getLast? = some '\n' then [] else ['\n']

theorem getLast?_wholeLines (body : Text) : (wholeLines body).getLast? = some '\n' := by
  rw [wholeLines]
  split
  · next ends => rw [List.append_nil, ends]
  · exact List.getLast?_concat

/-- The lines of a body, each with the end of a line, are the body line for line. -/
theorem lineForLine_wholeLines (body : Text) :
    LineForLine body (terminalLines (wholeLines body)) where
  ended := by
    have ends := (endsWith_terminalLines (wholeLines body)).mpr (getLast?_wholeLines body)
    rwa [Text.endsWith, List.isPrefixOf_iff_prefix, List.reverse_prefix] at ends
  returned := returned_terminalLines _
  lines := by
    rw [← unixLines_eq, ← unixLines_eq, unixLines_terminalLines, wholeLines]

/-! ### Deeds -/

/-- The deeds of a program that fetches, writes and sends, in this order. -/
def course (urls texts : List Text) (status : Int) : List Deed :=
  urls.map (fun url => .act (.call (.fetch url))) ++
    (texts.map (fun text => .act (.write text)) ++ [.act (.send status)])

section Courses

variable (urls texts : List Text) (status : Int)

theorem calls_course : (course urls texts status).filterMap Deed.call? = urls.map .fetch := by
  simp [course, Deed.call?, List.filterMap_map, Function.comp_def]

theorem statuses_course : (course urls texts status).filterMap Deed.status? = [status] := by
  have nothing : ∀ texts : List Text, texts.filterMap (fun _ => (none : Option Int)) = [] :=
    fun texts => List.filterMap_eq_nil_iff.mpr fun _ _ => rfl
  simp [course, Deed.status?, List.filterMap_map, Function.comp_def, nothing]

theorem texts_course : (course urls texts status).filterMap Deed.text? = texts := by
  have sends : [Deed.act (.send status)].filterMap Deed.text? = [] := rfl
  simp [course, sends, Deed.text?, List.filterMap_map, Function.comp_def]

/-- What a stage has more when the deeds have been done. -/
theorem carryOutAll_course (stage : Stage) :
    let after := stage.carryOutAll (course urls texts status)
    after.calls = stage.calls ++ urls.map .fetch ∧
      after.completion = (stage.send status).2.completion ∧
      after.console.terminal.recorded = stage.console.terminal.recorded ++ texts.flatten := by
  -- The calls stand in front, so what is written is the last case of the induction on them.
  induction urls generalizing stage with
  | cons url urls ih =>
      obtain ⟨calls, completion, record⟩ := ih (stage.perform (.call (.fetch url)))
      rw [Stage.completion_send] at completion ⊢
      refine ⟨?_, completion, record⟩
      exact calls.trans (List.append_assoc _ [_] _)
  | nil =>
      induction texts generalizing stage with
      | nil =>
          obtain ⟨calls, console⟩ := stage.send_silent status
          refine ⟨calls.trans (List.append_nil _).symm, rfl, ?_⟩
          exact (congrArg (·.terminal.recorded) console).trans (List.append_nil _).symm
      | cons text texts ih =>
          obtain ⟨calls, completion, record⟩ := ih (stage.write text)
          rw [Stage.completion_send] at completion ⊢
          refine ⟨calls, completion, ?_⟩
          rw [List.flatten_cons, ← List.append_assoc, ← Console.recorded_write]
          exact record

end Courses

/-- The deeds that write a body, and the status behind it. -/
theorem allDeeds_deliver (body : Text) :
    ∃ texts : List Text, (deliver body).allDeeds = course [] texts statusSuccess ∧
      texts.flatten = terminalLines (wholeLines body) := by
  have ended : (withLineEnds body).endsWith lineEnd = true ↔
      (unixLines body).getLast? = some '\n' := endsWith_terminalLines _
  rw [deliver, wholeLines]
  by_cases ends : (unixLines body).getLast? = some '\n'
  · refine ⟨[withLineEnds body], ?_, ?_⟩
    · rw [if_pos (ended.mpr ends)]
      rfl
    · rw [if_pos ends, List.append_nil, List.flatten_singleton, withLineEnds]
  · refine ⟨[withLineEnds body, lineEnd], ?_, ?_⟩
    · rw [if_neg (ends ∘ ended.mp)]
      rfl
    · rw [if_neg ends, terminalLines_append, withLineEnds]
      rfl

/-- Waiting is no deed. -/
theorem allDeeds_awaits (waits : List Wait) (next : Script) :
    (Script.awaits waits next).allDeeds = next.allDeeds := by
  induction waits with
  | nil => rfl
  | cons wait waits ih => exact ih

theorem ending_awaits (waits : List Wait) (next : Script) :
    (Script.awaits waits next).ending = next.ending := by
  induction waits with
  | nil => rfl
  | cons wait waits ih => exact ih

/-- What is written and sent: the lines of the body and success, or one message and failure. -/
inductive Reports (fetch : Fetch) (arguments : List Argument) : List Text → Int → Prop where
  | body {body : Text} {texts : List Text} (found : body? fetch arguments = some body)
      (whole : texts.flatten = terminalLines (wholeLines body)) :
      Reports fetch arguments texts statusSuccess
  | message {message : Text} (none : body? fetch arguments = none)
      (refuses : Refuses fetch arguments message) :
      Reports fetch arguments [message ++ lineEnd] statusFailure

/-- What is done with the outcome of a fetch: texts are written, and a status is sent. -/
theorem reports_conclude {url : Text} (asked : url? arguments = some url)
    (heard : (fetch url).outcome ≠ .cancelled) :
    (conclude (fetch url).outcome).ending = .returned .other ∧
      ∃ texts status, Reports fetch arguments texts status ∧
        (conclude (fetch url).outcome).allDeeds = course [] texts status := by
  have found : body? fetch arguments = returned? (fetch url).outcome := by
    rw [body?, asked]
    rfl
  have delivers : ∀ body, body? fetch arguments = some body →
      (deliver body).ending = .returned .other ∧ ∃ texts status,
        Reports fetch arguments texts status ∧
          (deliver body).allDeeds = course [] texts status := by
    intro body found
    obtain ⟨texts, deeds, whole⟩ := allDeeds_deliver body
    refine ⟨?_, texts, statusSuccess, .body found whole, deeds⟩
    rw [deliver, Script.ending]
    split <;> rfl
  cases outcome : (fetch url).outcome with
  | text body => exact delivers body (by rw [found, outcome]; rfl)
  | bytes bytes => exact delivers (Utf8.decode bytes) (by rw [found, outcome]; rfl)
  | failed fault =>
      have none : body? fetch arguments = none := by rw [found, outcome]; rfl
      refine ⟨rfl, ?_⟩
      by_cases silent : fault.message = []
      · refine ⟨_, _, .message none (.silent asked outcome silent), ?_⟩
        rw [conclude, silent]
        rfl
      · refine ⟨_, _, .message none (.failed asked outcome silent), ?_⟩
        rw [conclude, List.isEmpty_eq_false_iff.mpr silent]
        rfl
  | cancelled => exact absurd outcome heard

/-- All that the program does: it fetches what it is asked for, writes, and sends. -/
theorem reports_script (heard : ∀ url ∈ url? arguments, (fetch url).outcome ≠ .cancelled) :
    (script fetch arguments).ending = .returned .other ∧
      ∃ texts status, Reports fetch arguments texts status ∧
        (script fetch arguments).allDeeds = course (url? arguments).toList texts status := by
  cases asked : url? arguments with
  | none =>
      have nothing : script fetch arguments =
          .perform (.write "No URL is provided.\r\n") (finish statusFailure) := by
        match arguments, asked with
        | [], _ => rfl
        | .switch _ _ _ :: _, _ => rfl
      have none : body? fetch arguments = none := by
        rw [body?, asked]
        rfl
      rw [nothing]
      exact ⟨rfl, _, _, .message none (.unasked asked), rfl⟩
  | some url =>
      have fetches : script fetch arguments = .perform (.call (.fetch url))
          (.awaits (fetch url).waits (conclude (fetch url).outcome)) := by
        match arguments, asked with
        | .text _ :: _, rfl => rfl
      obtain ⟨ends, texts, status, reports, deeds⟩ := reports_conclude asked (heard url asked)
      rw [fetches]
      refine ⟨(ending_awaits _ _).trans ends, texts, status, reports, ?_⟩
      exact congrArg (Deed.act (.call (.fetch url)) :: ·) ((allDeeds_awaits _ _).trans deeds)

theorem Refuses.ne_nil {message : Text} (refuses : Refuses fetch arguments message) :
    message ≠ [] := by
  cases refuses with
  | unasked => decide
  | failed asked failed some => exact some
  | silent => decide

/-- What is written and sent delivers the body, or says why there is none. -/
theorem Reports.delivers {texts : List Text} {status : Int}
    (reports : Reports fetch arguments texts status) :
    Delivers fetch arguments (course (url? arguments).toList texts status) status where
  fetches := calls_course _ _ _
  sends := statuses_course _ _ _
  succeeds := by
    cases reports with
    | body found => simp [found]
    | message none => simp [none, statusSuccess, statusFailure]
  body := by
    rw [texts_course]
    cases reports with
    | body found whole =>
        rw [found, whole]
        rintro _ ⟨⟩
        exact lineForLine_wholeLines _
    | message none =>
        rw [none]
        rintro _ ⟨⟩
  message := by
    rw [texts_course]
    cases reports with
    | body found => exact fun none => absurd (found.symm.trans none) (Option.some_ne_none _)
    | message none refuses => exact fun _ => ⟨_, refuses, refuses.ne_nil, rfl⟩
  performed stage := by
    rw [calls_course, texts_course]
    exact carryOutAll_course _ _ _ stage

end Curl

/-- However the program that fetches a URL is played, in parts or at once, it comes to its end
if it is not cancelled.  Then it has fetched what it was asked for once, has sent one status, and
has written the body line for line or one message.  The line ends that it puts into a text are
there for good. -/
theorem delivers_line_for_line {fetch : Fetch} {arguments : List Argument}
    (heard : ∀ url ∈ Curl.url? arguments, (fetch url).outcome ≠ .cancelled) :
    (∃ deeds ending, (Curl.start fetch arguments).Played deeds ending) ∧
      (∀ deeds ending, (Curl.start fetch arguments).Played deeds ending →
        ending = .returned .other ∧ ∃ status, Curl.Delivers fetch arguments deeds status) ∧
      ∀ body, Curl.withLineEnds (Curl.withLineEnds body) = Curl.withLineEnds body := by
  obtain ⟨ends, texts, status, reports, deeds⟩ := Curl.reports_script heard
  refine ⟨⟨_, _, Start.played_allDeeds _⟩, ?_, Curl.withLineEnds_idem⟩
  intro done ending played
  obtain ⟨rfl, rfl⟩ := played.deeds_eq
  refine ⟨ends, status, ?_⟩
  have whole : (Curl.start fetch arguments).allDeeds =
      Curl.course (Curl.url? arguments).toList texts status := deeds
  rw [whole]
  exact reports.delivers

/-- A fetch that has to wait twice, for bytes with line ends of all kinds and one byte that
starts no character. -/
theorem delivers_line_for_line_bytes :
    let fetch : Fetch := fun _ =>
      { waits := [.gate "door", .sleep 1], outcome := .bytes [97, 13, 13, 10, 10, 255, 13] }
    let arguments : List Argument := [.text "u", .text "v"]
    (∀ url ∈ Curl.url? arguments, (fetch url).outcome ≠ .cancelled) ∧
      ∃ deeds, (Curl.start fetch arguments).Played deeds (.returned .other) ∧
        Curl.Delivers fetch arguments deeds statusSuccess ∧
        LineForLine "a\r\r\n\n\uFFFD\r" (deeds.filterMap Deed.text?).flatten := by
  intro fetch arguments
  have heard : ∀ url ∈ Curl.url? arguments, (fetch url).outcome ≠ .cancelled := by
    intro url asked cancelled
    cases cancelled
  obtain ⟨⟨deeds, ending, played⟩, whenever, -⟩ := delivers_line_for_line heard
  obtain ⟨rfl, status, delivers⟩ := whenever deeds ending played
  have found : Curl.body? fetch arguments = some "a\r\r\n\n\uFFFD\r" := by decide
  obtain rfl := delivers.succeeds.mpr (by rw [found]; rfl)
  exact ⟨heard, deeds, played, delivers, delivers.body _ found⟩

end LineShell
