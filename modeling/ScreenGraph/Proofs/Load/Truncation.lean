import ScreenGraph.Proofs.Load.Comparison
import ScreenGraph.Proofs.Record.Edits

/-!
# ScreenGraph.Proofs.Load.Truncation

A line that stops the reading of a trace file costs the rest of that file and nothing else.

The directory is compared with the one in which the file ends before the line. Neither the line nor
what follows it is ever looked at again, so the two loads give the same model, and their reports
differ in what is said about the line. This takes for granted that no recorded state has the trace
file itself as its state file, because a name such as `../trace…` leads from the states directory to
a trace file, and then the whole of it is read as one.

* `StopsAt`: the line at which reading stops.
* `reading_truncated`: what is read up to there.
* `load_truncated`: loads of the two directories.
-/

namespace ScreenGraph

open Files Graph Identity Record Screen Watch

namespace Load

/-! ## Where reading stops -/

/-- Reading a trace file with this content stops at line `k`: under the policy to abort at the first
row with too few fields, and under either policy at a line that is not UTF-8. -/
inductive StopsAt (settings : Settings) (path : Path) (content : List UInt8) :
    Nat → ReadError → Prop where
  | malformed {r : Record} (hpolicy : settings.malformed = .abortTrace)
    (hr : (traceRows settings content).find? (!Layout.trace.accepts ·) = some r) :
    StopsAt settings path content r.line (Layout.trace.rejection path r)
  | undecodable {u : Text.Utf8Error} (hu : (texts (lines content)).2 = some u)
    (hrows : settings.malformed = .abortTrace →
      ∀ r ∈ traceRows settings content, Layout.trace.accepts r = true) :
    StopsAt settings path content ((texts (lines content)).1.length + 1) (.io path (.utf8 u))

variable {settings : Settings} {files files' : Tree} {content : List UInt8} {k : Nat}
  {e : ReadError}

/-- The line does not depend on the path by which the file was found. -/
theorem StopsAt.along {path : Path} (h : StopsAt settings path content k e) (path' : Path) :
    ∃ e', StopsAt settings path' content k e' := by
  cases h with
  | malformed hpolicy hr => exact ⟨_, .malformed hpolicy hr⟩
  | undecodable hu hrows => exact ⟨_, .undecodable hu hrows⟩

/-- The rows of the first lines of a trace file. -/
theorem traceRows_firstLines (settings : Settings) (n : Nat) (content : List UInt8) :
    traceRows settings (firstLines n content) =
      (traceRows settings content).filter (·.line < 1 + n) := by
  rw [traceRows, lines_firstLines, (texts_take n _).1, rowsFrom_take]
  rfl

/-- What is read of the whole file is what is read of the lines before the one that stops it, and
that line besides. -/
theorem reading_truncated {source : Source} (h : StopsAt settings source.path content k e)
    (hfound : files.find source.path = .ok (.file content))
    (hcut : files'.find source.path = .ok (.file (firstLines (k - 1) content))) :
    reading settings files source = (reading settings files' source).ahead
      (if e.isMalformed then [e] else []) (some e) := by
  simp only [reading, hfound, hcut, traceRows_firstLines, lines_firstLines]
  cases h with
  | @malformed r hpolicy hr =>
    have hmem : r ∈ traceRows settings content := List.mem_of_find?_eq_some hr
    obtain ⟨hfirst, hlast⟩ := line_of_mem hmem
    obtain ⟨hrejected, before, after, hrows, hbefore⟩ := List.find?_eq_some_iff_append.1 hr
    have hordered : (traceRows settings content).Pairwise fun a b => a.line < b.line :=
      rowsFrom_ordered .trace settings.separator 1 _
    have hkept : (traceRows settings content).filter (·.line < 1 + (r.line - 1)) = before := by
      have hline : 1 + (r.line - 1) = r.line := by omega
      rw [hrows] at hordered ⊢
      obtain ⟨-, hafter, hbelow⟩ := List.pairwise_append.1 hordered
      have hnone : (r :: after).filter (·.line < r.line) = [] := by
        refine List.filter_eq_nil_iff.2 (List.forall_mem_cons.2 ⟨by simp, fun b hb => ?_⟩)
        have habove := (List.pairwise_cons.1 hafter).1 b hb
        simp only [decide_eq_true_eq]
        omega
      have hall : before.filter (·.line < r.line) = before := by
        refine List.filter_eq_self.2 fun b hb => ?_
        simpa using hbelow b hb r List.mem_cons_self
      rw [hline, List.filter_append, hall, hnone, List.append_nil]
    have hdecoded := (texts_take (r.line - 1) (lines content)).2 (by omega)
    have haccepts : ∀ b ∈ before, Layout.trace.accepts b = true := by simpa using hbefore
    rw [hkept, hdecoded, hpolicy, hrows,
      Intake.ofRows_rejected source.path _ haccepts (by simpa using hrejected),
      Intake.ofRows_accepted .abortTrace source.path _ haccepts]
    rfl
  | @undecodable u hu hrows =>
    have hkept : (traceRows settings content).filter
        (·.line < 1 + ((texts (lines content)).1.length + 1 - 1)) =
          traceRows settings content := by
      refine List.filter_eq_self.2 fun r hr => ?_
      have hline := (line_of_mem hr).2
      simp only [decide_eq_true_eq]
      omega
    have hdecoded := (texts_take ((texts (lines content)).1.length + 1 - 1) (lines content)).2
      (by omega)
    rw [hkept, hdecoded, hu]
    cases hpolicy : settings.malformed with
    | abortTrace =>
      rw [Intake.ofRows_accepted .abortTrace source.path _ (hrows hpolicy),
        Intake.ofRows_accepted .abortTrace source.path _ (hrows hpolicy)]
      rfl
    | skip => rfl

/-! ## Loads -/

/-- The reports on a trace file in a load of the cut directory and in one of the whole directory:
the same, unless it is the file that was cut. Then the whole file has one more issue if its line is
malformed, and that line's error if there was none. -/
structure Cut (settings : Settings) (files : Tree) (path : Path) (content : List UInt8) (k : Nat)
    (r r' : TraceReport) : Prop where
  elsewhere : files.leads? r.source ≠ files.leads? path → r' = r
  here : files.leads? r.source = files.leads? path → ∃ e, StopsAt settings r.source content k e ∧
    Prefaced (if e.isMalformed then [malformedIssue r.origin e] else []) (some (.read e)) r r'

/-- The directory in which the file ends before line `k`. -/
def cutAt (files : Tree) (path : Path) (k : Nat) : Tree :=
  files.reviseAt [path] (firstLines (k - 1))

theorem alike_truncated {path : Path} (h : StopsAt settings path content k e)
    (hfound : files.find path = .ok (.file content)) {source : Source}
    (hstates : ∀ r ∈ (reading settings files source).records,
      (cutAt files path k).find (settings.statePath (resultName r)) =
        files.find (settings.statePath (resultName r))) :
    Alike settings (cutAt files path k) settings files (Cut settings files path content k)
      source := by
  intro s
  have horigin : (processTrace settings (cutAt files path k) s source).2.origin = source :=
    (processTrace_about settings _ s source).origin
  have hsource : (processTrace settings (cutAt files path k) s source).2.source = source.path :=
    congrArg Source.path horigin
  by_cases hleads : files.leads? source.path = files.leads? path
  -- the file that was cut, by whichever path
  · obtain ⟨pos, hpos⟩ := Tree.leads_of_find hfound
    obtain ⟨e', hstops⟩ := h.along source.path
    have hwhole : files.find source.path = .ok (.file content) :=
      (Tree.find_of_leads (hleads.trans hpos) hpos).trans hfound
    have hcut : (cutAt files path k).find source.path =
        .ok (.file (firstLines (k - 1) content)) := by
      rw [cutAt, Tree.find_reviseAt_of_leads List.mem_cons_self hleads.symm, hwhole]
      rfl
    have hreading := reading_truncated hstops hwhole hcut
    have hrecords := congrArg Intake.records hreading
    obtain ⟨hsession, hreport⟩ := processTrace_ahead settings settings.malformed hreading
      (fun r hr => (hstates r (hrecords ▸ hr)).symm) s
    have hissues : (if e'.isMalformed then [e'] else []).map (malformedIssue source) =
        if e'.isMalformed then [malformedIssue source e'] else [] := by
      split <;> rfl
    rw [hissues] at hreport
    have hfatal := hreport.isFatal fun e he => by
      cases he
      rfl
    refine ⟨hsession, hfatal, ⟨fun hne => ?_, fun _ => ?_⟩⟩
    · exact absurd (hsource ▸ hleads) hne
    · exact ⟨e', hsource ▸ hstops, horigin.symm ▸ hreport⟩
  -- any other file
  · have hfind : (cutAt files path k).find source.path = files.find source.path := by
      refine Tree.find_reviseAt_of_apart fun q hq => ?_
      rw [List.mem_singleton.1 hq]
      exact Ne.symm hleads
    have hreading : reading settings files source =
        (reading settings (cutAt files path k) source).ahead [] none := by
      simp [reading, hfind, Intake.ahead]
    have hrecords := congrArg Intake.records hreading
    obtain ⟨hsession, hreport⟩ := processTrace_ahead settings settings.malformed hreading
      (fun r hr => (hstates r (hrecords ▸ hr)).symm) s
    have hfatal := hreport.isFatal fun e he => by cases he
    refine ⟨hsession, hfatal, ⟨fun _ => hreport.eq_of_nothing, fun heq => ?_⟩⟩
    exact absurd (hsource ▸ heq) hleads

/-- A directory with a trace file whose reading stops at line `k`, and the same directory with that
file ending before the line. If every state file that a record names is the same in both, the loads
give the same model, the same reports on all other files, and reports on this one that differ in
what is said about the line. -/
theorem load_truncated {path : Path} {names : List String}
    (hlist : files.list settings.baseDir = .ok names)
    (hfound : files.find path = .ok (.file content)) (hstops : StopsAt settings path content k e)
    (hstates : ∀ name ∈ namesRead settings files (traceFiles settings names),
      (cutAt files path k).find (settings.statePath name) = files.find (settings.statePath name))
    (watchers : List Watcher) (cancelled : Bool) :
    ∃ l l', load settings (cutAt files path k) watchers cancelled = .ok l ∧
      load settings files watchers cancelled = .ok l' ∧
        SameLoads (Cut settings files path content k) l l' := by
  have hlist' : (cutAt files path k).list settings.baseDir = .ok names :=
    (files.list_reviseAt _ _ settings.baseDir).trans hlist
  have halike : ∀ source ∈ traceFiles settings names,
      Alike settings (cutAt files path k) settings files (Cut settings files path content k)
        source := by
    intro source hsource
    exact alike_truncated hstops hfound fun r hr => hstates _ (mem_namesRead hsource hr)
  obtain ⟨l, l', hl, hl', hsame, -⟩ :=
    load_alike settings.malformed hlist' hlist halike watchers cancelled
  exact ⟨l, l', hl, hl', hsame⟩

def stoppedSettings : Settings :=
  (Settings.ofBase ⟨"m"⟩).sequential

def stoppedPath : Path :=
  ⟨"m/trace00000000000000000000000000000001.csv"⟩

/-- A directory with one trace file. -/
def stoppedFiles (content : List UInt8) : Tree where
  cwd := ["work"]
  nodes := [
    (["work"], .directory),
    (["work", "m"], .directory),
    (["work", "m", "states"], .directory),
    (["work", "m", "states", "s1.csv"],
      .file (Text.utf8 "b;Button;ok;app;/b;OK;true;;;;;1:1:2:2\n")),
    (["work", "m", "trace00000000000000000000000000000001.csv"], .file content)]

def stoppedNames : List String :=
  ["states", "trace00000000000000000000000000000001.csv"]

section

variable (content : List UInt8)

theorem stoppedFiles_list :
    (stoppedFiles content).list stoppedSettings.baseDir = .ok stoppedNames := by
  rfl

theorem stoppedFiles_find : (stoppedFiles content).find stoppedPath = .ok (.file content) := by
  rfl

end

theorem stoppedNames_paths :
    (traceFiles stoppedSettings stoppedNames).map (·.path) = [stoppedPath] := by
  decide +kernel

/-- The second line is malformed. -/
def stoppedContent : List UInt8 :=
  Text.utf8 "Click;s1;s1;b;\nx\nClick;s1;s1;b;\n"

theorem load_truncated_stopped :
    (∃ e, StopsAt stoppedSettings stoppedPath stoppedContent 2 e) ∧
      ∃ l l', load stoppedSettings (cutAt (stoppedFiles stoppedContent) stoppedPath 2) [] false =
          .ok l ∧
        load stoppedSettings (stoppedFiles stoppedContent) [] false = .ok l' ∧
          SameLoads (Cut stoppedSettings (stoppedFiles stoppedContent) stoppedPath stoppedContent 2)
            l l' := by
  have hrejected : (traceRows stoppedSettings stoppedContent).find?
      (!Layout.trace.accepts ·) = some ⟨2, ["x"]⟩ := by decide +kernel
  have hstops : StopsAt stoppedSettings stoppedPath stoppedContent 2 _ :=
    .malformed rfl hrejected
  have hnames : namesRead stoppedSettings (stoppedFiles stoppedContent)
      (traceFiles stoppedSettings stoppedNames) = ["s1"] := by decide +kernel
  refine ⟨⟨_, hstops⟩,
    load_truncated (stoppedFiles_list _) (stoppedFiles_find _) hstops ?_ [] false⟩
  rw [hnames]
  decide +kernel

/-- A name that leads from the states directory to the trace file. As a state file, the whole file
cannot be read, but its first line can. -/
def escapingContent : List UInt8 :=
  Text.utf8 ("Click;../trace00000000000000000000000000000001;" ++
    "../trace00000000000000000000000000000001;;;;;;;;;\nx\n")

/-- What a line costs when the trace file is a state file as well: the state, and with it the
action of the line before. -/
theorem load_truncated_escaping :
    (stoppedFiles escapingContent).list stoppedSettings.baseDir = .ok stoppedNames ∧
      (traceFiles stoppedSettings stoppedNames).map (·.path) = [stoppedPath] ∧
      (stoppedFiles escapingContent).find stoppedPath = .ok (.file escapingContent) ∧
      (∃ e, StopsAt stoppedSettings stoppedPath escapingContent 2 e) ∧
      ∃ l l', load stoppedSettings (cutAt (stoppedFiles escapingContent) stoppedPath 2) [] false =
          .ok l ∧
        load stoppedSettings (stoppedFiles escapingContent) [] false = .ok l' ∧
          l.model.graph.actionCount = 1 ∧ l'.model.graph.actionCount = 0 ∧
            ¬ SameLoads (Cut stoppedSettings (stoppedFiles escapingContent) stoppedPath
              escapingContent 2) l l' := by
  have hrejected : (traceRows stoppedSettings escapingContent).find?
      (!Layout.trace.accepts ·) = some ⟨2, ["x"]⟩ := by decide +kernel
  have hcut : (load stoppedSettings (cutAt (stoppedFiles escapingContent) stoppedPath 2) []
      false).toOption.any (·.model.graph.actionCount = 1) = true := by decide +kernel
  have hwhole : (load stoppedSettings (stoppedFiles escapingContent) [] false).toOption.any
      (·.model.graph.actionCount = 0) = true := by decide +kernel
  exact ⟨stoppedFiles_list _, stoppedNames_paths, stoppedFiles_find _,
    ⟨_, .malformed rfl hrejected⟩, load_apart hcut hwhole (by decide)⟩

end Load
end ScreenGraph
