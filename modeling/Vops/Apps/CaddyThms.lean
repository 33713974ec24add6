import Vops.Apps.CaddyScripts

/-!
# What a route write reports, and what the proxy serves (`parseRouteWrite`)

* `Run`, `Follows` — the runs of the two scripts, one after the other, on one host.
* `Truthful` — what a run reports holds, and no other app is served otherwise.
* `Clear` — what is asked of the host before a run, and of what the proxy says.
* `truthful_iff` — a run is truthful exactly when it is clear; `reports_true` — so are all runs.

A reload takes over every fragment on the disk: those of runs whose reload failed as well, and it
drops those that a refused write had removed.
-/

namespace Vops.CaddyScripts

open AuthorizedKeys (Text)
open StatusBattery (Marks isMarker section? isSome_section)

/-! ## Runs -/

inductive Request
  | write (app : App) (content : Text)
  | remove (app : App)

def Request.app : Request → App
  | .write app _ => app
  | .remove app => app

/-- The file of the app. -/
def Request.file (r : Request) : String := caddyRouteFile r.app.name

/-- What the file is to hold. -/
def Request.fragment : Request → Option Text
  | .write _ content => some (content ++ ['\n'])
  | .remove _ => none

def Request.script : Request → Script
  | .write app content => buildCaddyRouteWriteScript app.name content
  | .remove app => buildCaddyRouteRemoveScript app.name

/-- The heredoc is read as the content, where there is one. -/
def Request.Verbatim (r : Request) : Prop :=
  ∀ app content, r = .write app content → CaddyScripts.Verbatim r.file content

/-- One run of a script, with what the proxy answers during it. -/
structure Run where
  request : Request
  proxy : Proxy

/-- What may come of a run: anything, where the content is read as commands. -/
def Run.Ends (run : Run) (before : CaddyHost) (outcome : CaddyHost × Text) : Prop :=
  ∀ o, run.request.script.run run.proxy before = some o → outcome = o

/-- A run that has ended. -/
structure Entry where
  run : Run
  after : CaddyHost
  stdout : Text

/-- The runs have ended one after the other. -/
def Follows : CaddyHost → List Entry → Prop
  | _, [] => True
  | before, e :: es => e.run.Ends before (e.after, e.stdout) ∧ Follows e.after es

/-- What holds of every run, and of the host before it. -/
def Throughout (P : CaddyHost → Entry → Prop) : CaddyHost → List Entry → Prop
  | _, [] => True
  | before, e :: es => P before e ∧ Throughout P e.after es

variable {γ : Type}

/-- Whether an app is served, and behind which gate: `gate` is what the proxy reads in a fragment.
-/
def served (gate : Text → γ) (files : Files) (app : App) : Option γ :=
  (files (caddyRouteFile app.name)).map gate

/-- What a run reports holds, and the other apps are served as before. -/
structure Truthful (gate : Text → γ) (before : CaddyHost) (e : Entry) : Prop where
  wrote : (parseRouteWrite e.stdout).kind = .wrote → e.after.running = e.after.files ∧
    e.after.running e.run.request.file = e.run.request.fragment
  rejected : (parseRouteWrite e.stdout).kind = .rejected →
    e.after.running e.run.request.file = none
  others : ∀ other, other ≠ e.run.request.app →
    served gate e.after.running other = served gate before.running other

/-! ## The condition -/

/-- The fragments on the disk when the proxy is asked. -/
def Request.files (r : Request) (before : CaddyHost) : Files :=
  Function.update before.files r.file r.fragment

/-- What the proxy answers. -/
def Run.answer (run : Run) (before : CaddyHost) (verb : Verb) : Answer :=
  run.proxy.answer verb (run.request.files before)

/-- What is printed of an answer. -/
def Run.printed (run : Run) (before : CaddyHost) (verb : Verb) : Text :=
  tailed (substituted (run.answer before verb).text)

/-- A write finds its configuration invalid. -/
def Run.Refused (run : Run) (before : CaddyHost) : Prop :=
  (∃ app content, run.request = .write app content) ∧ (run.answer before .validate).ok = false

/-- A write can not have its configuration reloaded. -/
def Run.Failed (run : Run) (before : CaddyHost) : Prop :=
  (∃ app content, run.request = .write app content) ∧ (run.answer before .validate).ok = true ∧
    (run.answer before .reload).ok = false

/-- The configuration is reloaded. -/
def Run.Reloaded (run : Run) (before : CaddyHost) : Prop :=
  ¬run.Refused before ∧ (run.answer before .reload).ok = true

def wroteMark : Text := "wrote".toList

def invalidMark : Text := "invalid".toList

/-- What is asked of the host before a run, and of what the proxy says during it. -/
structure Clear (gate : Text → γ) (before : CaddyHost) (run : Run) : Prop where
  verbatim : run.request.Verbatim
  /-- Where the configuration is refused, the app is not served, and the proxy prints no marker. -/
  refused : run.Refused before → before.running run.request.file = none ∧
    ¬Marks wroteMark (run.printed before .validate)
  /-- Where the reload fails, the proxy prints a marker only if what it reports holds. -/
  failed : run.Failed before →
    (Marks wroteMark (run.printed before .reload) → before.running = run.request.files before) ∧
      (¬Marks wroteMark (run.printed before .reload) →
        Marks invalidMark (run.printed before .reload) → before.running run.request.file = none)
  /-- Where it is reloaded, the proxy serves the other apps as the disk has them already. -/
  reloaded : run.Reloaded before → ∀ other, other ≠ run.request.app →
    served gate before.files other = served gate before.running other

/-! ## What is printed -/

section Printed

variable {name : Text}

/-- The markers of a line and of what is printed behind it. -/
theorem marks_line_append {line : Text} (hline : '\n' ∉ line) (rest : Text) :
    Marks name (line ++ ['\n'] ++ rest) ↔ isMarker name line = true ∨ Marks name rest := by
  rw [Marks, List.append_assoc, List.singleton_append,
    List.splitOn_append_cons_self_of_not_mem hline]
  simp [Marks]

theorem kind_eq_wrote_iff (stdout : Text) :
    (parseRouteWrite stdout).kind = .wrote ↔ Marks wroteMark stdout := by
  rw [← isSome_section, parseRouteWrite, wroteMark]
  rcases section? "wrote".toList stdout with _ | detail
  · rcases section? "invalid".toList stdout with _ | detail
    · rcases section? "failed".toList stdout with _ | detail <;> simp
    · simp
  · simp

theorem kind_eq_rejected_iff (stdout : Text) : (parseRouteWrite stdout).kind = .rejected ↔
    ¬Marks wroteMark stdout ∧ Marks invalidMark stdout := by
  rw [← isSome_section, ← isSome_section, parseRouteWrite, wroteMark, invalidMark]
  rcases section? "wrote".toList stdout with _ | detail
  · rcases section? "invalid".toList stdout with _ | detail
    · rcases section? "failed".toList stdout with _ | detail <;> simp
    · simp
  · simp

theorem kind_refused (printed : Text) :
    ((parseRouteWrite ("@@invalid".toList ++ ['\n'] ++ printed)).kind = .wrote ↔
      Marks wroteMark printed) ∧
    ((parseRouteWrite ("@@invalid".toList ++ ['\n'] ++ printed)).kind = .rejected ↔
      ¬Marks wroteMark printed) := by
  have hline : '\n' ∉ "@@invalid".toList := by decide
  have hwrote : isMarker wroteMark "@@invalid".toList = false := by decide
  have hinvalid : isMarker invalidMark "@@invalid".toList = true := by decide
  rw [kind_eq_wrote_iff, kind_eq_rejected_iff, marks_line_append hline, marks_line_append hline]
  simp only [hwrote, hinvalid, Bool.false_eq_true, false_or, true_or, and_true, iff_self, and_self]

theorem kind_failed (printed : Text) :
    ((parseRouteWrite ("@@failed".toList ++ ['\n'] ++ printed)).kind = .wrote ↔
      Marks wroteMark printed) ∧
    ((parseRouteWrite ("@@failed".toList ++ ['\n'] ++ printed)).kind = .rejected ↔
      ¬Marks wroteMark printed ∧ Marks invalidMark printed) := by
  have hline : '\n' ∉ "@@failed".toList := by decide
  have hwrote : isMarker wroteMark "@@failed".toList = false := by decide
  have hinvalid : isMarker invalidMark "@@failed".toList = false := by decide
  rw [kind_eq_wrote_iff, kind_eq_rejected_iff, marks_line_append hline, marks_line_append hline]
  simp only [hwrote, hinvalid, Bool.false_eq_true, false_or, iff_self, and_self]

theorem kind_wrote (rest : Text) :
    (parseRouteWrite ("@@wrote".toList ++ ['\n'] ++ rest)).kind = .wrote := by
  rw [kind_eq_wrote_iff, marks_line_append (by decide)]
  exact .inl (by decide)

end Printed

/-! ## What a run does -/

section Runs

variable {gate : Text → γ} {before after : CaddyHost} {run : Run} {stdout : Text}

/-- The fragments once the one of the app is removed. -/
def Request.removed (r : Request) (before : CaddyHost) : Files :=
  Function.update before.files r.file none

/-- What comes of a run whose content is read as it is. -/
inductive Outcome (run : Run) (before : CaddyHost) : CaddyHost → Text → Prop
  | refused (h : run.Refused before) :
      Outcome run before ⟨run.request.removed before, before.running⟩
        ("@@invalid".toList ++ ['\n'] ++ run.printed before .validate)
  | failed (h : run.Failed before) :
      Outcome run before ⟨run.request.files before, before.running⟩
        ("@@failed".toList ++ ['\n'] ++ run.printed before .reload)
  | reloaded (h : run.Reloaded before) (hwrite : ∃ app content, run.request = .write app content) :
      Outcome run before ⟨run.request.files before, run.request.files before⟩
        ("@@wrote".toList ++ ['\n'] ++ run.request.file.toList ++ ['\n'])
  | removed (h : ∃ app, run.request = .remove app) :
      Outcome run before ⟨run.request.files before, if (run.answer before .reload).ok then
        run.request.files before else before.running⟩ ("@@removed".toList ++ ['\n'])

theorem run_write {app : App} {content : Text} (hrequest : run.request = .write app content)
    (h : Verbatim run.request.file content) : run.request.script.run run.proxy before =
      some (if (run.answer before .validate).ok then
        if (run.answer before .reload).ok then
          (⟨run.request.files before, run.request.files before⟩,
            "@@wrote".toList ++ ['\n'] ++ run.request.file.toList ++ ['\n'])
        else (⟨run.request.files before, before.running⟩,
          "@@failed".toList ++ ['\n'] ++ run.printed before .reload)
      else (⟨run.request.removed before, before.running⟩,
        "@@invalid".toList ++ ['\n'] ++ run.printed before .validate)) := by
  obtain ⟨request, proxy⟩ := run
  cases hrequest
  change Verbatim (caddyRouteFile app.name) content at h
  change (buildCaddyRouteWriteScript app.name content).run proxy before = _
  have hanswer (verb : Verb) : Run.answer ⟨.write app content, proxy⟩ before verb =
    proxy.answer verb
      (Function.update before.files (caddyRouteFile app.name) (some (content ++ ['\n']))) := rfl
  rw [hanswer, hanswer]
  cases hvalidate : (proxy.answer .validate (Function.update before.files
    (caddyRouteFile app.name) (some (content ++ ['\n'])))).ok with
  | false =>
      simp [Script.run, buildCaddyRouteWriteScript, Command.run, Simple.run, CaddyHost.ask, h,
        hvalidate]
      exact ⟨rfl, rfl⟩
  | true =>
      cases hreload : (proxy.answer .reload (Function.update before.files
        (caddyRouteFile app.name) (some (content ++ ['\n'])))).ok with
      | false =>
          simp [Script.run, buildCaddyRouteWriteScript, Command.run, Simple.run, CaddyHost.ask, h,
            hvalidate, hreload]
          exact ⟨rfl, rfl⟩
      | true =>
          simp [Script.run, buildCaddyRouteWriteScript, Command.run, Simple.run, CaddyHost.ask, h,
            hvalidate, hreload]
          exact ⟨rfl, rfl⟩

theorem run_remove {app : App} (hrequest : run.request = .remove app) :
    run.request.script.run run.proxy before =
      some (⟨run.request.files before, if (run.answer before .reload).ok then
        run.request.files before else before.running⟩, "@@removed".toList ++ ['\n']) := by
  obtain ⟨request, proxy⟩ := run
  cases hrequest
  change (buildCaddyRouteRemoveScript app.name).run proxy before = _
  have hanswer : Run.answer ⟨.remove app, proxy⟩ before .reload =
    proxy.answer .reload (Function.update before.files (caddyRouteFile app.name) none) := rfl
  rw [hanswer]
  cases hreload : (proxy.answer .reload
    (Function.update before.files (caddyRouteFile app.name) none)).ok with
  | false =>
      simp [Script.run, buildCaddyRouteRemoveScript, Command.run, Simple.run, CaddyHost.ask,
        hreload]
      rfl
  | true =>
      simp [Script.run, buildCaddyRouteRemoveScript, Command.run, Simple.run, CaddyHost.ask,
        hreload]
      rfl

/-- What comes of a run is one of these. -/
theorem outcome_of_ends (hverbatim : run.request.Verbatim)
    (hends : run.Ends before (after, stdout)) : Outcome run before after stdout := by
  cases hrequest : run.request with
  | write app content =>
      have hwrite : ∃ app content, run.request = .write app content := ⟨app, content, hrequest⟩
      have heq := hends _ (run_write hrequest (hverbatim app content hrequest))
      cases hvalidate : (run.answer before .validate).ok with
      | false =>
          simp only [hvalidate, Bool.false_eq_true, if_false] at heq
          obtain ⟨rfl, rfl⟩ := Prod.mk.inj heq
          exact .refused ⟨hwrite, hvalidate⟩
      | true =>
          cases hreload : (run.answer before .reload).ok with
          | false =>
              simp only [hvalidate, hreload, Bool.false_eq_true, if_false, if_true] at heq
              obtain ⟨rfl, rfl⟩ := Prod.mk.inj heq
              exact .failed ⟨hwrite, hvalidate, hreload⟩
          | true =>
              simp only [hvalidate, hreload, if_true] at heq
              obtain ⟨rfl, rfl⟩ := Prod.mk.inj heq
              refine .reloaded ⟨fun h => ?_, hreload⟩ hwrite
              rw [h.2] at hvalidate
              cases hvalidate
  | remove app =>
      obtain ⟨rfl, rfl⟩ := Prod.mk.inj (hends _ (run_remove hrequest))
      exact .removed ⟨app, hrequest⟩

/-! ## What is reported -/

theorem App.eq_of_name {a b : App} (h : a.name = b.name) : a = b := by
  obtain ⟨name, hname⟩ := a
  cases h
  rfl

theorem fragment_of_write (h : ∃ app content, run.request = .write app content) :
    ∃ text, run.request.fragment = some text := by
  obtain ⟨app, content, h⟩ := h
  exact ⟨content ++ ['\n'], by rw [h, Request.fragment]⟩

theorem files_file (r : Request) (before : CaddyHost) : r.files before r.file = r.fragment :=
  Function.update_self ..

/-- Another app has another file. -/
theorem files_other (r : Request) (before : CaddyHost) {other : App} (hother : other ≠ r.app) :
    r.files before (caddyRouteFile other.name) = before.files (caddyRouteFile other.name) := by
  refine Function.update_of_ne (fun h => hother ?_) ..
  have hname : other.name = r.app.name := by
    have hchars := congrArg String.toList h
    simp only [Request.file, caddyRouteFile, String.toList_append, List.append_cancel_left_eq,
      List.append_cancel_right_eq] at hchars
    exact String.ext_iff.mpr hchars
  exact App.eq_of_name hname

theorem served_files (gate : Text → γ) (r : Request) (before : CaddyHost) {other : App}
    (hother : other ≠ r.app) :
    served gate (r.files before) other = served gate before.files other := by
  rw [served, files_other r before hother, served]

/-- A refused write is reported truthfully exactly when the app is not served and no marker is
printed. -/
theorem truthful_refused_iff (h : run.Refused before) :
    Truthful gate before ⟨run, ⟨run.request.removed before, before.running⟩,
      "@@invalid".toList ++ ['\n'] ++ run.printed before .validate⟩ ↔
    before.running run.request.file = none ∧ ¬Marks wroteMark (run.printed before .validate) := by
  obtain ⟨hwrote, hrejected⟩ := kind_refused (run.printed before .validate)
  obtain ⟨text, htext⟩ := fragment_of_write h.1
  constructor
  · intro htrue
    have hnot : ¬Marks wroteMark (run.printed before .validate) := by
      intro hmarks
      obtain ⟨hsame, hserved⟩ := htrue.wrote (hwrote.mpr hmarks)
      have hfile : run.request.removed before run.request.file = run.request.fragment :=
        (congrFun hsame _).symm.trans hserved
      rw [htext, Request.removed, Function.update_self] at hfile
      cases hfile
    exact ⟨htrue.rejected (hrejected.mpr hnot), hnot⟩
  · rintro ⟨hserved, hnot⟩
    exact ⟨fun hkind => absurd (hwrote.mp hkind) hnot, fun _ => hserved, fun _ _ => rfl⟩

/-- A write whose reload failed. -/
theorem truthful_failed_iff :
    Truthful gate before ⟨run, ⟨run.request.files before, before.running⟩,
      "@@failed".toList ++ ['\n'] ++ run.printed before .reload⟩ ↔
    (Marks wroteMark (run.printed before .reload) → before.running = run.request.files before) ∧
      (¬Marks wroteMark (run.printed before .reload) →
        Marks invalidMark (run.printed before .reload) →
          before.running run.request.file = none) := by
  obtain ⟨hwrote, hrejected⟩ := kind_failed (run.printed before .reload)
  constructor
  · intro htrue
    exact ⟨fun hmarks => (htrue.wrote (hwrote.mpr hmarks)).1,
      fun hnot hmarks => htrue.rejected (hrejected.mpr ⟨hnot, hmarks⟩)⟩
  · rintro ⟨hsame, hserved⟩
    refine ⟨fun hkind => ?_, fun hkind => ?_, fun _ _ => rfl⟩
    · have hrunning := hsame (hwrote.mp hkind)
      refine ⟨hrunning, ?_⟩
      change before.running run.request.file = _
      rw [hrunning, files_file]
    · obtain ⟨hnot, hmarks⟩ := hrejected.mp hkind
      exact hserved hnot hmarks

/-- A run that reloads the configuration of the disk. -/
theorem truthful_reloaded_iff (stdout : Text)
    (hkind : (parseRouteWrite stdout).kind = .rejected → run.request.fragment = none) :
    Truthful gate before ⟨run, ⟨run.request.files before, run.request.files before⟩, stdout⟩ ↔
    ∀ other, other ≠ run.request.app →
      served gate before.files other = served gate before.running other := by
  constructor
  · intro htrue other hother
    rw [← served_files gate run.request before hother]
    exact htrue.others other hother
  · intro hothers
    refine ⟨fun _ => ⟨rfl, files_file run.request before⟩, fun h => ?_, fun other hother => ?_⟩
    · exact (files_file run.request before).trans (hkind h)
    · exact (served_files gate run.request before hother).trans (hothers other hother)

/-- A run is truthful exactly when it is clear. -/
theorem truthful_iff (hverbatim : run.request.Verbatim) (hends : run.Ends before (after, stdout)) :
    Truthful gate before ⟨run, after, stdout⟩ ↔ Clear gate before run := by
  cases outcome_of_ends hverbatim hends with
  | refused h =>
      have hfailed : ¬run.Failed before := fun h' => by
        have hok := h.2.symm.trans h'.2.1
        cases hok
      rw [truthful_refused_iff h]
      exact ⟨fun hclear => ⟨hverbatim, fun _ => hclear, fun h' => absurd h' hfailed,
        fun h' => absurd h h'.1⟩, fun hclear => hclear.refused h⟩
  | failed h =>
      have hrefused : ¬run.Refused before := fun h' => by
        have hok := h'.2.symm.trans h.2.1
        cases hok
      have hreloaded : ¬run.Reloaded before := fun h' => by
        have hok := h.2.2.symm.trans h'.2
        cases hok
      rw [truthful_failed_iff]
      exact ⟨fun hclear => ⟨hverbatim, fun h' => absurd h' hrefused, fun _ => hclear,
        fun h' => absurd h' hreloaded⟩, fun hclear => hclear.failed h⟩
  | reloaded h hwrite =>
      have hfailed : ¬run.Failed before := fun h' => by
        have hok := h'.2.2.symm.trans h.2
        cases hok
      rw [truthful_reloaded_iff _ fun hkind => by
        rw [List.append_assoc, kind_wrote] at hkind
        cases hkind]
      exact ⟨fun hclear => ⟨hverbatim, fun h' => absurd h' h.1, fun h' => absurd h' hfailed,
        fun _ => hclear⟩, fun hclear => hclear.reloaded h⟩
  | removed h =>
      have hwrite : ¬∃ app content, run.request = .write app content := by
        rintro ⟨app, content, hrequest⟩
        obtain ⟨app', hremove⟩ := h
        cases hremove.symm.trans hrequest
      have hfragment : run.request.fragment = none := by
        obtain ⟨app, hremove⟩ := h
        rw [hremove, Request.fragment]
      cases hreload : (run.answer before .reload).ok with
      | true =>
          rw [if_pos rfl, truthful_reloaded_iff _ fun _ => hfragment]
          exact ⟨fun hclear => ⟨hverbatim, fun h' => absurd h'.1 hwrite,
            fun h' => absurd h'.1 hwrite, fun _ => hclear⟩,
            fun hclear => hclear.reloaded ⟨fun h' => hwrite h'.1, hreload⟩⟩
      | false =>
          have hwrote : ¬Marks wroteMark ("@@removed".toList ++ ['\n']) := by decide
          have hinvalid : ¬Marks invalidMark ("@@removed".toList ++ ['\n']) := by decide
          rw [if_neg (by simp)]
          refine iff_of_true ⟨fun hkind => ?_, fun hkind => ?_, fun _ _ => rfl⟩
            ⟨hverbatim, fun h' => absurd h'.1 hwrite, fun h' => absurd h'.1 hwrite, fun h' => ?_⟩
          · exact absurd ((kind_eq_wrote_iff _).mp hkind) hwrote
          · exact absurd ((kind_eq_rejected_iff _).mp hkind).2 hinvalid
          · have hok := hreload.symm.trans h'.2
            cases hok

end Runs

/-- Where every run is clear, every run is truthful. -/
theorem reports_true (gate : Text → γ) (before : CaddyHost) (entries : List Entry)
    (hfollows : Follows before entries)
    (hclear : Throughout (fun host e => Clear gate host e.run) before entries) :
    Throughout (Truthful gate) before entries := by
  induction entries generalizing before with
  | nil => exact True.intro
  | cons e entries ih =>
      obtain ⟨hends, hrest⟩ := hfollows
      obtain ⟨hfirst, hmore⟩ := hclear
      exact ⟨(truthful_iff hfirst.verbatim hends).mpr hfirst, ih e.after hrest hmore⟩

/-! ## Two writes of one app -/

/-- A run as it ends. -/
def Run.noted (run : Run) (before : CaddyHost) : Entry :=
  let outcome := (run.request.script.run run.proxy before).getD (before, [])
  ⟨run, outcome.1, outcome.2⟩

theorem ends_noted (run : Run) (before : CaddyHost) :
    run.Ends before ((run.noted before).after, (run.noted before).stdout) := by
  intro o ho
  rw [Run.noted, ho]
  rfl

def emptyHost : CaddyHost := ⟨fun _ => none, fun _ => none⟩

def toolsApp : App := ⟨"tools", by decide⟩

/-- A first write, which the proxy accepts. -/
def firstRun : Run where
  request := .write toolsApp "tools.example.com \x7b\n\x7d\n".toList
  proxy := ⟨fun _ _ => ⟨true, []⟩⟩

/-- A second one, which it refuses. -/
def secondRun : Run where
  request := .write toolsApp "tools.example.com \x7b\n    reverse_prox\n\x7d\n".toList
  proxy := ⟨fun _ _ => ⟨false, "Error: unrecognized directive 'reverse_prox'\n".toList⟩⟩

theorem clear_firstRun : Clear id emptyHost firstRun where
  verbatim := by
    rintro app content h
    cases h
    decide
  refused h := by cases h.2
  failed h := by cases h.2.2
  reloaded _ _ _ := rfl

theorem reports_true_first : (parseRouteWrite (firstRun.noted emptyHost).stdout).kind = .wrote ∧
    Throughout (Truthful id) emptyHost [firstRun.noted emptyHost] :=
  ⟨by decide +kernel, reports_true id emptyHost [firstRun.noted emptyHost]
    ⟨ends_noted firstRun emptyHost, True.intro⟩ ⟨clear_firstRun, True.intro⟩⟩

/-- The second write is reported as refused, and the proxy still serves what the first one wrote. -/
theorem refused_still_served : ¬∀ entries, Follows emptyHost entries →
    Throughout (Truthful id) emptyHost entries := by
  intro h
  let second := secondRun.noted (firstRun.noted emptyHost).after
  have hall := h [firstRun.noted emptyHost, second] ⟨ends_noted _ _, ends_noted _ _, True.intro⟩
  have htrue : Truthful id (firstRun.noted emptyHost).after second := hall.2.1
  have hkind : (parseRouteWrite second.stdout).kind = .rejected := by decide +kernel
  have hserved : second.after.running second.run.request.file ≠ none := by decide +kernel
  exact hserved (htrue.rejected hkind)

end Vops.CaddyScripts
