import Notebook.Proofs.Segment.Gaps
import Notebook.Proofs.Session.Asking
import Notebook.Terminal.Dialogue

/-!
# The prompt keeps what is typed

A line of code is evaluated together with the unfinished input before it, and what is left unfinished of
both stays pending.  So the lines that have been typed are, in order, the units that the engine has
evaluated, each of them once, blanks and comments between them, the unfinished input that blank lines have
discarded, and the input that is pending (`Terminal.Dialogue.prompt_keeps_input`).
-/

namespace Notebook
open Notebook.Text Notebook.Scan

/-! ## Units one after the other -/

namespace Kernel

/-- The kernel after units have been evaluated one after the other, if none of them is broken off. -/
def afterUnits (fuel : Nat) : List (List Char) → Kernel → Option Kernel
  | [], k => some k
  | unit :: units, k =>
    match afterUnit fuel unit k with
    | (.ok _, k') => afterUnits fuel units k'
    | (.error _, _) => none

theorem afterUnits_cons {fuel : Nat} {unit : List Char} {r : EvaluationResult} {k k' : Kernel}
    (h : afterUnit fuel unit k = (.ok r, k')) (units : List (List Char)) :
    afterUnits fuel (unit :: units) k = afterUnits fuel units k' := by
  rw [afterUnits, h]

theorem afterUnits_append (fuel : Nat) (units more : List (List Char)) (k : Kernel) :
    afterUnits fuel (units ++ more) k = (afterUnits fuel units k).bind (afterUnits fuel more) := by
  induction units generalizing k with
  | nil => rfl
  | cons unit units ih =>
    rw [List.cons_append, afterUnits, afterUnits]
    rcases afterUnit fuel unit k with ⟨e | r, k'⟩
    · rfl
    · exact ih k'

end Kernel

namespace Terminal

/-- A stretch of what has been typed, by what became of it. -/
inductive Stretch
  /-- A unit that the engine has evaluated. -/
  | unit (text : List Char)
  /-- What stands between units. -/
  | gap (text : List Char)
  /-- Unfinished input that a blank line has discarded. -/
  | discarded (text : List Char)
  deriving DecidableEq, Repr

namespace Stretch

def text : Stretch → List Char
  | unit text | gap text | discarded text => text

def unit? : Stretch → Option (List Char)
  | unit text => some text
  | _ => none

def discarded? : Stretch → Option (List Char)
  | discarded text => some text
  | _ => none

end Stretch

/-- A text is used up but for a rest: its units lead from one kernel to another. -/
structure Uses (fuel : Nat) (typed : List Char) (k k' : Kernel) (stretches : List Stretch)
    (rest : List Char) : Prop where
  text : typed = stretches.flatMap Stretch.text ++ rest
  complete : ∀ u, .unit u ∈ stretches → completeness u = .complete (width u)
  gaps : ∀ g, .gap g ∈ stretches → IsGap g
  units : Kernel.afterUnits fuel (stretches.filterMap Stretch.unit?) k = some k'

namespace Uses

variable {fuel : Nat} {typed rest rest' : List Char} {k k' k'' : Kernel}
  {stretches stretches' : List Stretch}

theorem nothing (fuel : Nat) (k : Kernel) (rest : List Char) : Uses fuel rest k k [] rest :=
  ⟨rfl, nofun, nofun, rfl⟩

/-- The rest is used up in turn. -/
theorem trans (h : Uses fuel typed k k' stretches rest) (hrest : Uses fuel rest k' k'' stretches' rest') :
    Uses fuel typed k k'' (stretches ++ stretches') rest' := by
  refine ⟨?_, fun u hu => ?_, fun g hg => ?_, ?_⟩
  · rw [h.text, hrest.text, List.flatMap_append, List.append_assoc]
  · exact (List.mem_append.1 hu).elim (h.complete u) (hrest.complete u)
  · exact (List.mem_append.1 hg).elim (h.gaps g) (hrest.gaps g)
  · rw [List.filterMap_append, Kernel.afterUnits_append, h.units]
    exact hrest.units

/-- What is typed next comes behind the rest. -/
theorem goOn (h : Uses fuel typed k k' stretches rest) (more : List Char) :
    Uses fuel (typed ++ more) k k' stretches (rest ++ more) := by
  refine ⟨?_, h.complete, h.gaps, h.units⟩
  rw [h.text, List.append_assoc]

theorem of_discarded (fuel : Nat) (k : Kernel) (rest : List Char) :
    Uses fuel rest k k [.discarded rest] [] :=
  ⟨by simp [Stretch.text], by simp, by simp, rfl⟩

theorem of_gap {g : List Char} (hg : IsGap g) : Uses fuel (g ++ rest) k k [.gap g] rest := by
  refine ⟨by simp [Stretch.text], by simp, fun g' hg' => ?_, rfl⟩
  cases List.mem_singleton.1 hg'
  exact hg

theorem of_unit {u : List Char} {r : EvaluationResult} (hu : completeness u = .complete (width u))
    (hafter : Kernel.afterUnit fuel u k = (.ok r, k')) : Uses fuel (u ++ rest) k k' [.unit u] rest := by
  refine ⟨by simp [Stretch.text], fun u' hu' => ?_, by simp, ?_⟩
  · cases List.mem_singleton.1 hu'
    exact hu
  · exact Kernel.afterUnits_cons hafter []

end Uses

/-! ## One text -/

variable {fuel : Nat} {source : List Char} {w w' : Workspace}

/-- An evaluation that ends uses up its text but for what it tells to be incomplete. -/
theorem uses_of_evaluateFrom {start : Nat} {r r' : EvaluationResult} (hr : r.incomplete = none)
    (h : Kernel.outcome (Kernel.evaluateFrom fuel source start r) w = (.ok r', w')) :
    ∃ stretches, Uses fuel (dropBytes source start) w.kernel w'.kernel stretches (r'.incomplete.getD []) ∧
      stretches.filterMap Stretch.discarded? = [] ∧
      ∀ rest, r'.incomplete = some rest → completeness rest = .incomplete := by
  fun_induction Kernel.evaluateFrom fuel source start r generalizing w with
  | case1 start r hdone =>
    cases h
    have hgap : Uses fuel (dropBytes source start ++ []) w'.kernel w'.kernel
        [.gap (dropBytes source start)] [] := .of_gap (Segment.isGap_of_next_done hdone)
    rw [List.append_nil] at hgap
    rw [hr]
    exact ⟨_, hgap, rfl, nofun⟩
  | case2 start r rest hincomplete =>
    cases h
    obtain ⟨blanks, hgap, hcut, hrest⟩ := Segment.cuts_of_next_incomplete hincomplete
    rw [hcut]
    refine ⟨_, Uses.of_gap hgap, rfl, ?_⟩
    rintro _ ⟨⟩
    exact hrest
  | case3 start r unit hunit ih =>
    obtain ⟨blanks, hgap, hcut⟩ := Segment.cuts_of_next_unit hunit
    obtain ⟨-, -, hcomplete⟩ := Segment.unit_of_next hunit
    rw [Kernel.outcome_bind, Kernel.outcome_evaluateUnit] at h
    rcases hafter : Kernel.afterUnit fuel unit.text w.kernel with ⟨e | q, kernel⟩
    · rw [hafter] at h
      cases h
    · rw [hafter] at h
      obtain ⟨stretches, huses, hnone, hrest⟩ := ih (r.followedBy q) hr h
      rw [hcut]
      exact ⟨_, (Uses.of_gap hgap).trans ((Uses.of_unit hcomplete hafter).trans huses), hnone, hrest⟩

theorem uses_of_evaluate {r : EvaluationResult}
    (h : Kernel.outcome (Kernel.evaluate fuel source) w = (.ok r, w')) :
    ∃ stretches, Uses fuel source w.kernel w'.kernel stretches (r.incomplete.getD []) ∧
      stretches.filterMap Stretch.discarded? = [] ∧
      ∀ rest, r.incomplete = some rest → completeness rest = .incomplete := by
  rw [Kernel.outcome_evaluate] at h
  rcases hfrom : Kernel.outcome (Kernel.evaluateFrom fuel source 0 {})
    { w with evaluations := w.evaluations + 1 } with ⟨e | collected, w''⟩
  · rw [hfrom] at h
    cases h
  · rw [hfrom] at h
    have huses := uses_of_evaluateFrom rfl hfrom
    rw [dropBytes_zero] at huses
    -- what is answered is as incomplete as what was collected
    obtain ⟨value, hanswered⟩ := collected.answered_eq w''.kernel.store
    have hincomplete : (collected.answered w''.kernel.store).incomplete = collected.incomplete := by
      rw [hanswered]
      rfl
    rw [← hincomplete] at huses
    cases h
    exact huses

/-! ## One line -/

namespace Dialogue

variable {d d' : Dialogue} {line shown text : List Char}

/-- Pending input is unfinished: it ends with a line feed, and the engine waits for more. -/
def IsUnfinished (pending : List Char) : Prop :=
  pending.getLast? = some '\n' ∧ completeness pending = .incomplete

theorem unfinished_eq {incomplete : Option (List Char)}
    (h : ∀ rest, incomplete = some rest → rest.getLast? = some '\n') :
    unfinished incomplete = incomplete.getD [] := by
  cases incomplete with
  | none => rfl
  | some rest =>
    unfold unfinished
    dsimp only
    rw [if_pos (h rest rfl)]
    rfl

theorem evaluated_pending (d : Dialogue) (r : EvaluationResult) :
    (d.evaluated r).2.pending = unfinished r.incomplete ∧ (d.evaluated r).2.manager = d.manager ∧
      (d.evaluated r).2.session = d.session := by
  unfold evaluated
  dsimp only
  split <;> exact ⟨rfl, rfl, rfl⟩

/-- What the worker of the session works on, once it has nothing to do. -/
def workspace? (d : Dialogue) : Option Workspace := (d.manager.settle d.session).workspace? d.session

/-- A line of code has been evaluated, and the dialogue goes on. -/
structure Evaluates (d : Dialogue) (text : List Char) (w : Workspace) (r : EvaluationResult) (w' : Workspace)
    (d' : Dialogue) : Prop where
  before : d.workspace? = some w
  evaluates : Kernel.outcome (Kernel.evaluate d.manager.fuel (d.pending ++ textLine text)) w = (.ok r, w')
  pending : d'.pending = unfinished r.incomplete
  after : d'.workspace? = some { w' with evaluations := 0 }
  attends : d'.manager.Attends d'.session
  fuel : d'.manager.fuel = d.manager.fuel
  enginesStart : d'.manager.enginesStart = d.manager.enginesStart

/-- The dialogue as it asks for an evaluation, and what it gets. -/
theorem take_of_source (d : Dialogue) (hline : Input.ofLine line = .source text) :
    d.take line =
      let asked := d.manager.ask d.session (.evaluate (.ok ()) (d.pending ++ textLine text))
      match asked.1 with
      | .error e => .error e
      | .ok (.evaluation r) =>
        let after := { d with manager := asked.2 }.evaluated r
        .ok (after.1, some after.2)
      | .ok _ => .ok ([], some { d with manager := asked.2 }) := by
  unfold take
  rw [hline]
  dsimp only
  unfold ask
  rcases d.manager.ask d.session (.evaluate (.ok ()) (d.pending ++ textLine text)) with ⟨e | a, m⟩
  · rfl
  · cases a <;> rfl

/-- A line of code is evaluated behind what is pending, and the dialogue goes on if the evaluation ends. -/
theorem take_source (hattends : d.manager.Attends d.session) (hstarts : d.manager.Starts d.session)
    (hline : Input.ofLine line = .source text) : ∃ w, d.workspace? = some w ∧
      match Kernel.outcome (Kernel.evaluate d.manager.fuel (d.pending ++ textLine text)) w with
      | (.error e, _) => d.take line = .error e
      | (.ok r, w') => ∃ shown d', d.take line = .ok (shown, some d') ∧ d.Evaluates text w r w' d' := by
  obtain ⟨w, hbefore, hasked⟩ := Manager.ask_evaluate hattends hstarts (d.pending ++ textLine text)
  refine ⟨w, hbefore, ?_⟩
  have htake := take_of_source d hline
  dsimp only at htake
  rcases hevaluate : Kernel.outcome (Kernel.evaluate d.manager.fuel (d.pending ++ textLine text)) w with
    ⟨e | r, w'⟩
  · rw [hevaluate] at hasked
    rw [hasked] at htake
    exact htake
  · rw [hevaluate] at hasked
    rw [hasked.reply] at htake
    obtain ⟨hpending, hmanager, hsession⟩ := evaluated_pending
      { d with manager := (d.manager.ask d.session (.evaluate (.ok ()) (d.pending ++ textLine text))).2 } r
    refine ⟨_, _, htake, hbefore, hevaluate, hpending, ?_, ?_, ?_, ?_⟩
    · unfold workspace?
      rw [hmanager, hsession]
      exact hasked.after
    · rw [hmanager, hsession]
      exact hasked.attends
    · rw [hmanager]
      exact hasked.fuel
    · rw [hmanager]
      exact hasked.enginesStart

/-- An evaluation that ends lets the dialogue go on. -/
theorem evaluates_source {w : Workspace} {incomplete : Option (List Char)}
    (hattends : d.manager.Attends d.session) (hengines : d.manager.enginesStart = true)
    (hline : Input.ofLine line = .source text) (hw : d.workspace? = some w)
    (hends : (Kernel.outcome (Kernel.evaluate d.manager.fuel (d.pending ++ textLine text)) w).1.toOption.map
      (·.incomplete) = some incomplete) :
    ∃ shown d' r w', d.take line = .ok (shown, some d') ∧ d.Evaluates text w r w' d' ∧
      r.incomplete = incomplete := by
  obtain ⟨r, hr, hincomplete⟩ := Option.map_eq_some_iff.1 hends
  obtain ⟨w₀, hw₀, hevaluate⟩ := take_source hattends (fun _ _ _ => hengines) hline
  cases hw.symm.trans hw₀
  rw [Kernel.eq_ok_of_toOption hr] at hevaluate
  obtain ⟨shown, d', htake, hevaluates⟩ := hevaluate
  exact ⟨shown, d', r, _, htake, hevaluates, hincomplete⟩

theorem evaluates_of_take (hattends : d.manager.Attends d.session) (hline : Input.ofLine line = .source text)
    (htake : d.take line = .ok (shown, some d')) : ∃ w r w', d.Evaluates text w r w' d' := by
  have hstarts : d.manager.Starts d.session := by
    rw [take_of_source d hline] at htake
    dsimp only at htake
    rcases hask : (d.manager.ask d.session (.evaluate (.ok ()) (d.pending ++ textLine text))).1 with e | a
    · rw [hask] at htake
      cases htake
    · exact Manager.starts_of_ask hattends hask
  obtain ⟨w, -, hevaluate⟩ := take_source hattends hstarts hline
  split at hevaluate
  · cases htake.symm.trans hevaluate
  · obtain ⟨shown', next, htake', hevaluates⟩ := hevaluate
    cases htake.symm.trans htake'
    exact ⟨w, _, _, hevaluates⟩

/-- A dialogue goes on to another one: what is typed is used up together with what is pending. -/
structure Follows (d : Dialogue) (typed : List Char) (discarded : List (List Char)) (d' : Dialogue) :
    Prop where
  uses : ∃ w w' stretches, d.workspace? = some w ∧ d'.workspace? = some w' ∧
    Uses d.manager.fuel (d.pending ++ typed) w.kernel w'.kernel stretches d'.pending ∧
    stretches.filterMap Stretch.discarded? = discarded
  attends : d'.manager.Attends d'.session
  fuel : d'.manager.fuel = d.manager.fuel
  enginesStart : d'.manager.enginesStart = d.manager.enginesStart

theorem Follows.trans {d'' : Dialogue} {typed typed' : List Char} {discarded discarded' : List (List Char)}
    (h : Follows d typed discarded d') (h' : Follows d' typed' discarded' d'') :
    Follows d (typed ++ typed') (discarded ++ discarded') d'' := by
  obtain ⟨w, w', stretches, hw, hw', huses, hdiscarded⟩ := h.uses
  obtain ⟨v, w'', stretches', hv, hw'', huses', hdiscarded'⟩ := h'.uses
  cases hw'.symm.trans hv
  rw [h.fuel] at huses'
  have hall := (huses.goOn typed').trans huses'
  rw [List.append_assoc] at hall
  refine ⟨⟨w, w'', _, hw, hw'', hall, ?_⟩, h'.attends, h'.fuel.trans h.fuel,
    h'.enginesStart.trans h.enginesStart⟩
  rw [List.filterMap_append, hdiscarded, hdiscarded']

theorem follows_self (hattends : d.manager.Attends d.session) : Follows d [] [] d := by
  obtain ⟨w, hw⟩ := hattends.exists_workspace
  refine ⟨⟨w, w, [], hw, hw, ?_, rfl⟩, hattends, rfl, rfl⟩
  rw [List.append_nil]
  exact .nothing ..

/-- A line of code is used up but for what stays pending, and that is unfinished. -/
theorem follows_source (hattends : d.manager.Attends d.session) (hline : Input.ofLine line = .source text)
    (htake : d.take line = .ok (shown, some d')) :
    Follows d (textLine text) [] d' ∧
      (d'.pending = [] ∨ IsUnfinished d'.pending ∧ d'.pending <:+ d.pending ++ textLine text) := by
  obtain ⟨w, r, w', hevaluates⟩ := evaluates_of_take hattends hline htake
  obtain ⟨stretches, huses, hnone, hincomplete⟩ := uses_of_evaluate hevaluates.evaluates
  have hsuffix : r.incomplete.getD [] <:+ d.pending ++ textLine text := ⟨_, huses.text.symm⟩
  -- a rest is not empty, so its last character is the line feed behind the line
  have hends (rest : List Char) (hrest : r.incomplete = some rest) : rest.getLast? = some '\n' := by
    rw [hrest] at hsuffix
    obtain ⟨front, hfront⟩ := hsuffix
    have hne : rest ≠ [] := by
      rintro rfl
      have hempty := hincomplete [] hrest
      rw [completeness, tokens, lexemes] at hempty
      cases hempty
    have hlast := congrArg List.getLast? hfront
    rw [Option.getD_some, List.getLast?_append_of_ne_nil _ hne, textLine, ← List.append_assoc,
      List.getLast?_concat] at hlast
    exact hlast
  have hrest : d'.pending = r.incomplete.getD [] := hevaluates.pending.trans (unfinished_eq hends)
  rw [← hrest] at huses
  refine ⟨⟨⟨w, _, stretches, hevaluates.before, hevaluates.after, huses, hnone⟩, hevaluates.attends,
    hevaluates.fuel, hevaluates.enginesStart⟩, ?_⟩
  rw [hrest]
  cases hi : r.incomplete with
  | none => exact .inl rfl
  | some rest =>
    rw [hi] at hsuffix
    exact .inr ⟨⟨hends rest hi, hincomplete rest hi⟩, hsuffix⟩

/-- The unfinished input that a line discards, if there is any: a blank line does. -/
def discardedBy (d : Dialogue) (line : List Char) : List (List Char) :=
  if Input.ofLine line = .blank ∧ d.pending ≠ [] then [d.pending] else []

theorem discardedBy_of_source (d : Dialogue) (hline : Input.ofLine line = .source text) :
    d.discardedBy line = [] := by
  refine if_neg fun h => ?_
  cases hline.symm.trans h.1

theorem follows_blank (hattends : d.manager.Attends d.session) (hline : Input.ofLine line = .blank)
    (htake : d.take line = .ok (shown, some d')) :
    Follows d [] (d.discardedBy line) d' ∧ d'.pending = [] := by
  unfold discardedBy
  unfold take at htake
  rw [hline] at htake
  dsimp only at htake
  by_cases hpending : d.pending = []
  · rw [if_pos (List.isEmpty_iff.2 hpending)] at htake
    cases htake
    rw [if_neg fun h => h.2 hpending]
    exact ⟨follows_self hattends, hpending⟩
  · rw [if_neg (by rwa [List.isEmpty_iff])] at htake
    cases htake
    rw [if_pos ⟨hline, hpending⟩]
    obtain ⟨w, hw⟩ := hattends.exists_workspace
    refine ⟨⟨⟨w, w, [.discarded d.pending], hw, hw, ?_, rfl⟩, hattends, rfl, rfl⟩, rfl⟩
    rw [List.append_nil]
    exact .of_discarded ..

/-! ## Lines one after the other -/

/-- The dialogue after lines, if it goes on after each of them, with the unfinished input that they discard. -/
def after? (d : Dialogue) : List (List Char) → Option (List (List Char) × Dialogue)
  | [] => some ([], d)
  | line :: lines =>
    match d.take line with
    | .ok (_, some d') => (d'.after? lines).map fun after => (d.discardedBy line ++ after.1, after.2)
    | _ => none

theorem after?_cons (lines : List (List Char)) (htake : d.take line = .ok (shown, some d')) :
    d.after? (line :: lines) =
      (d'.after? lines).map fun after => (d.discardedBy line ++ after.1, after.2) := by
  rw [after?, htake]

/-- Lines of code, each with a line feed behind it. -/
def sourceText (lines : List (List Char)) : List Char :=
  lines.flatMap fun line =>
    match Input.ofLine line with
    | .source text => textLine text
    | _ => []

/-- Lines that are no commands. -/
def IsTyped (line : List Char) : Prop :=
  (∃ text, Input.ofLine line = .source text) ∨ Input.ofLine line = .blank

theorem follows_lines {lines discarded : List (List Char)} (hattends : d.manager.Attends d.session)
    (hlines : ∀ line ∈ lines, IsTyped line) (hafter : d.after? lines = some (discarded, d')) :
    Follows d (sourceText lines) discarded d' := by
  induction lines generalizing d discarded with
  | nil =>
    cases hafter
    exact follows_self hattends
  | cons line lines ih =>
    rw [after?] at hafter
    split at hafter
    · rename_i shown next htake
      obtain ⟨⟨later, last⟩, hlater, hafter⟩ := Option.map_eq_some_iff.1 hafter
      cases hafter
      have hrest (hnext : next.manager.Attends next.session) :=
        ih hnext (fun line hline => hlines line (List.mem_cons_of_mem _ hline)) hlater
      unfold sourceText
      rw [List.flatMap_cons]
      rcases hlines line List.mem_cons_self with ⟨text, hline⟩ | hline
      · obtain ⟨hfollows, -⟩ := follows_source hattends hline htake
        rw [hline, discardedBy_of_source d hline]
        exact hfollows.trans (hrest hfollows.attends)
      · obtain ⟨hfollows, -⟩ := follows_blank hattends hline htake
        rw [hline]
        exact hfollows.trans (hrest hfollows.attends)
    · cases hafter

/-- Code is asked for as it was typed. -/
theorem text_of_ofLine (h : Input.ofLine line = .source text) : text = line := by
  unfold Input.ofLine at h
  split at h
  · cases h
  · -- a command asks for something else, whether it is known or not
    rename_i command _
    dsimp only at h
    split at h <;> try cases h
    -- those that are left want an argument, and one of them wants it to be a number
    · split at h <;> cases h
    · split at h <;> cases h
    · split at h <;> cases h
    · cases hid : readId? ((trimStart (command.drop (command.takeWhile (!isBlank ·)).length)).dropWhile
        (· = '#')) with
      | none =>
        rw [hid] at h
        cases h
      | some id =>
        rw [hid] at h
        cases h
  · cases h
    rfl

/-- Whatever lines of code and blank lines are typed, as long as every evaluation ends: the lines of code, each
with its line feed, are in order the units that the engine has evaluated, which have led it from where it was
to where it is, each of them evaluated once; blanks and comments; the unfinished input that blank lines have
discarded; and the input that is pending.  After a line, nothing is pending, or input that ends with a line
feed, that is unfinished for the engine, and that the line ends with, if what was pending is put before it.
The dialogue goes on after a line of code if its evaluation ends. -/
theorem prompt_keeps_input (m : Manager) (lines discarded : List (List Char)) (d : Dialogue)
    (hlines : ∀ line ∈ lines, IsTyped line) (hafter : (start m).after? lines = some (discarded, d)) :
    (∃ w w' stretches, (start m).workspace? = some w ∧ d.workspace? = some w' ∧
      Uses m.fuel (sourceText lines) w.kernel w'.kernel stretches d.pending ∧
      stretches.filterMap Stretch.discarded? = discarded) ∧
    (∀ line shown d', IsTyped line → d.take line = .ok (shown, some d') →
      d'.pending = [] ∨ IsUnfinished d'.pending ∧ d'.pending <:+ d.pending ++ textLine line) ∧
    ∀ line text, Input.ofLine line = .source text → m.enginesStart = true →
      ∃ w, d.workspace? = some w ∧ ((∃ shown d', d.take line = .ok (shown, some d')) ↔
        ∃ r w', Kernel.outcome (Kernel.evaluate m.fuel (d.pending ++ textLine line)) w = (.ok r, w')) := by
  have hattends : (start m).manager.Attends (start m).session := m.attends_create
  have hfollows := follows_lines hattends hlines hafter
  have hfuel : d.manager.fuel = m.fuel := hfollows.fuel
  refine ⟨hfollows.uses, fun line shown d' hline htake => ?_, fun line text hline hengines => ?_⟩
  · rcases hline with ⟨text, hline⟩ | hline
    · cases text_of_ofLine hline
      exact (follows_source hfollows.attends hline htake).2
    · exact .inl (follows_blank hfollows.attends hline htake).2
  · cases text_of_ofLine hline
    have hstarts : d.manager.Starts d.session := fun _ _ _ => hfollows.enginesStart.trans hengines
    obtain ⟨w, hw, hevaluate⟩ := take_source hfollows.attends hstarts hline
    rw [hfuel] at hevaluate
    refine ⟨w, hw, ?_⟩
    rcases houtcome : Kernel.outcome (Kernel.evaluate m.fuel (d.pending ++ textLine line)) w with
      ⟨e | r, w'⟩
    · rw [houtcome] at hevaluate
      refine ⟨fun ⟨_, _, htake⟩ => ?_, nofun⟩
      cases htake.symm.trans hevaluate
    · rw [houtcome] at hevaluate
      obtain ⟨shown, d', htake, -⟩ := hevaluate
      exact ⟨fun _ => ⟨r, w', rfl⟩, fun _ => ⟨shown, d', htake⟩⟩

/-- A function in two lines, with a statement and the start of another function behind it, and a blank line. -/
def functionInLines : List (List Char) :=
  ["fn f() -> i64 \x7b".toList, "1 \x7d f(); fn g(".toList, []]

/-- What has been started is pending until the blank line discards it. -/
theorem functionInLines_are_kept :
    ∃ d w w' stretches,
      (start { catalog := [], fuel := 20 }).after? functionInLines = some (["fn g(\n".toList], d) ∧
      (start { catalog := [], fuel := 20 }).workspace? = some w ∧ d.workspace? = some w' ∧
      Uses 20 "fn f() -> i64 \x7b\n1 \x7d f(); fn g(\n".toList w.kernel w'.kernel stretches d.pending ∧
      stretches.filterMap Stretch.discarded? = ["fn g(\n".toList] := by
  have hattends : (start { catalog := [], fuel := 20 }).manager.Attends 0 := Manager.attends_create _
  have hw : (start { catalog := [], fuel := 20 }).workspace? = some Kernel.emptyWorkspace :=
    Manager.workspace?_first 20
  have hline₁ : Input.ofLine "fn f() -> i64 \x7b".toList = .source "fn f() -> i64 \x7b".toList := by decide
  have hline₂ : Input.ofLine "1 \x7d f(); fn g(".toList = .source "1 \x7d f(); fn g(".toList := by decide
  have hline₃ : Input.ofLine [] = .blank := rfl
  obtain ⟨_, d₁, r₁, w₁, htake₁, hfirst, hr₁⟩ := evaluates_source hattends rfl hline₁ hw
    (show _ = some (some "fn f() -> i64 \x7b\n".toList) by decide +kernel)
  have hpending₁ : d₁.pending = "fn f() -> i64 \x7b\n".toList := by
    rw [hfirst.pending, hr₁]
    decide
  -- the second line is evaluated behind the first one, where that has left the session
  have hw₁ : w₁ = (Kernel.outcome (Kernel.evaluate 20 "fn f() -> i64 \x7b\n".toList)
      Kernel.emptyWorkspace).2 := (congrArg Prod.snd hfirst.evaluates).symm
  obtain ⟨_, d₂, r₂, w₂, htake₂, hsecond, hr₂⟩ := evaluates_source hfirst.attends hfirst.enginesStart
    hline₂ hfirst.after (show _ = some (some "fn g(\n".toList) by
      rw [hfirst.fuel, hpending₁, hw₁]
      decide +kernel)
  have hpending₂ : d₂.pending = "fn g(\n".toList := by
    rw [hsecond.pending, hr₂]
    decide
  have htake₃ : d₂.take [] =
      .ok (textLine "discarded unfinished input".toList, some { d₂ with pending := [] }) := by
    unfold take
    rw [hpending₂]
    rfl
  have hafter : (start { catalog := [], fuel := 20 }).after? functionInLines =
      some (["fn g(\n".toList], { d₂ with pending := [] }) := by
    unfold functionInLines
    rw [after?_cons _ htake₁, after?_cons _ htake₂, after?_cons _ htake₃, discardedBy_of_source _ hline₁,
      discardedBy_of_source _ hline₂, discardedBy, if_pos ⟨hline₃, by rw [hpending₂]; decide⟩, hpending₂]
    rfl
  have hlines : ∀ line ∈ functionInLines, IsTyped line := by
    unfold functionInLines
    rintro line (_ | ⟨_, _ | ⟨_, _ | ⟨_, ⟨⟩⟩⟩⟩)
    · exact .inl ⟨_, hline₁⟩
    · exact .inl ⟨_, hline₂⟩
    · exact .inr hline₃
  obtain ⟨⟨w, w', stretches, hstart, hend, huses, hdiscarded⟩, -⟩ :=
    prompt_keeps_input { catalog := [], fuel := 20 } functionInLines _ _ hlines hafter
  have htyped : sourceText functionInLines = "fn f() -> i64 \x7b\n1 \x7d f(); fn g(\n".toList := by decide
  rw [htyped] at huses
  exact ⟨_, w, w', stretches, hafter, hstart, hend, huses, hdiscarded⟩

end Dialogue

end Terminal

end Notebook
