import ScreenGraph.Proofs.Load.History

/-!
# ScreenGraph.Proofs.Load.Cells

What a look-up that fails leaves behind.

A name that is asked for has a cell from then on, in which those meet who ask for it. The cell is
empty until a look-up succeeds, so one that fails leaves an empty cell where a survey has nothing.
A `Surveyor` keeps such cells. Whatever is asked of it, it answers as the survey of the names that
are settled: an empty cell says no more than none.

* `Cells.held?_opened`, `Cells.held?_filled`: what opening and filling a cell does to every name.
* `Survey.resolve_error_iff`: when a look-up fails.
* `Surveyor.serve_view`: a surveyor and a survey that agree go on to agree, and answer alike.
* `Surveyor.resolve_refused`: a look-up that failed cannot be told from one that never was.
-/

namespace ScreenGraph

open Files Graph Identity Record Screen

/-- Serves requests one after another. -/
def serveAll {σ ρ α : Type} (serve : σ → ρ → σ × α) (s : σ) : List ρ → σ × List α
  | [] => (s, [])
  | request :: requests =>
    let first := serve s request
    let rest := serveAll serve first.1 requests
    (rest.1, first.2 :: rest.2)

/-- Two ways to serve that agree on every request agree on all of them together. -/
theorem serveAll_related {σ τ ρ α : Type} {serve : σ → ρ → σ × α} {serve' : τ → ρ → τ × α}
    {R : σ → τ → Prop}
    (hstep : ∀ s t request, R s t →
      R (serve s request).1 (serve' t request).1 ∧ (serve s request).2 = (serve' t request).2)
    {s : σ} {t : τ} (requests : List ρ) (h : R s t) :
    R (serveAll serve s requests).1 (serveAll serve' t requests).1 ∧
      (serveAll serve s requests).2 = (serveAll serve' t requests).2 := by
  induction requests generalizing s t with
  | nil => exact ⟨h, rfl⟩
  | cons request requests ih =>
    obtain ⟨hfirst, hanswer⟩ := hstep s t request h
    obtain ⟨hrest, hanswers⟩ := ih hfirst
    exact ⟨hrest, List.cons_eq_cons.2 ⟨hanswer, hanswers⟩⟩

namespace Load

/-! ## Cells -/

/-- A cell for each name that was asked for. -/
structure Cells where
  entries : List (String × Option State)
  nodup : (entries.map Prod.fst).Nodup

namespace Cells

/-- What the cell of a name holds, if it has one that is not empty. -/
def held? (c : Cells) (name : String) : Option State :=
  (c.entries.lookup name).join

/-- Makes sure that a name has a cell. A new one is empty. -/
def opened (c : Cells) (name : String) : Cells :=
  if h : name ∈ c.entries.map Prod.fst then c
  else ⟨(name, none) :: c.entries, List.nodup_cons.2 ⟨h, c.nodup⟩⟩

/-- Puts a state into the cell of a name, unless there is one in it. -/
def filled (c : Cells) (name : String) (state : State) : Cells where
  entries := c.entries.map fun (other, held) =>
    (other, if other = name then held.or (some state) else held)
  nodup := by
    rw [List.map_map]
    exact c.nodup

/-- The cells of one who was asked for nothing yet. -/
def seeded (empty : State) : Cells :=
  ⟨[(StateId.empty.text, some empty)], by simp⟩

/-- The names that are settled: those whose cell is not empty. -/
def settled (c : Cells) : Registry String State :=
  ⟨c.entries.filterMap fun (name, held) => held.map (name, ·)⟩

theorem lookup_eq_none {entries : List (String × Option State)} {name : String}
    (h : name ∉ entries.map Prod.fst) : entries.lookup name = none := by
  rw [List.lookup_eq_none_iff]
  intro entry hentry
  have hne : name ≠ entry.1 := by
    rintro rfl
    exact h (List.mem_map_of_mem hentry)
  simpa using hne

/-- An empty cell holds what no cell holds. -/
theorem held?_opened (c : Cells) (name other : String) :
    (c.opened name).held? other = c.held? other := by
  unfold opened
  split
  · rfl
  · rename_i hnew
    simp only [held?, List.lookup_cons]
    split
    · rename_i hsame
      have hname : other = name := by simpa using hsame
      rw [hname, lookup_eq_none hnew]
      rfl
    · rfl

theorem mem_opened (c : Cells) (name : String) :
    name ∈ (c.opened name).entries.map Prod.fst := by
  unfold opened
  split
  · assumption
  · exact List.mem_cons_self

theorem lookup_filled (entries : List (String × Option State)) (name : String) (state : State)
    (other : String) :
    (entries.map fun (other, held) =>
      (other, if other = name then held.or (some state) else held)).lookup other =
      (entries.lookup other).map fun held =>
        if other = name then held.or (some state) else held := by
  induction entries with
  | nil => rfl
  | cons entry entries ih =>
    rw [List.map_cons, List.lookup_cons, List.lookup_cons]
    by_cases hsame : other = entry.1
    · rw [hsame]
      simp
    · have hb : (other == entry.1) = false := by simpa using hsame
      simp only [hb, ih]

/-- The cell of a name that was asked for holds a state once one is put into it. -/
theorem held?_filled {c : Cells} {name : String} (h : name ∈ c.entries.map Prod.fst)
    (state : State) (other : String) : (c.filled name state).held? other =
      if other = name then some ((c.held? name).getD state) else c.held? other := by
  simp only [held?, filled, lookup_filled]
  by_cases hsame : other = name
  · subst hsame
    simp only [if_true]
    cases hfound : c.entries.lookup other with
    | none =>
      obtain ⟨entry, hentry, rfl⟩ := List.mem_map.1 h
      have hne := List.lookup_eq_none_iff.1 hfound entry hentry
      simp at hne
    | some held => cases held <;> rfl
  · simp only [if_neg hsame]
    cases c.entries.lookup other <;> rfl

theorem find?_settled (c : Cells) (name : String) : c.settled.find? name = c.held? name := by
  obtain ⟨entries, hnodup⟩ := c
  simp only [settled, Registry.find?, held?]
  induction entries with
  | nil => rfl
  | cons entry entries ih =>
    obtain ⟨first, held⟩ := entry
    obtain ⟨hnew, hrest⟩ := List.nodup_cons.1 hnodup
    rw [List.filterMap_cons, List.lookup_cons]
    by_cases hsame : name = first
    · subst hsame
      cases held with
      | none =>
        simp only [Option.map_none, ih hrest, lookup_eq_none hnew]
        simp
      | some state => simp
    · have hb : (name == first) = false := by simpa using hsame
      cases held with
      | none => simp only [Option.map_none, hb, ih hrest]
      | some state => simp only [Option.map_some, List.lookup_cons, hb, ih hrest]

end Cells

/-! ## Requests -/

/-- An operation, or whatever else is asked of the graph alone or done to it: names that are
recorded, traces that are begun or extended. -/
inductive Request (α : Type) where
  | asked (op : Survey.Operation)
  | graph (act : Graph → Graph × α)

inductive Reply (α : Type) where
  | answered (answer : Survey.Answer)
  | graph (answer : α)

variable {α : Type}

def Survey.serve (s : Survey) : Request α → Survey × Reply α
  | .asked op =>
    let stepped := s.step op
    (stepped.1, .answered stepped.2)
  | .graph act =>
    let acted := act s.graph
    ({ s with graph := acted.1 }, .graph acted.2)

/-- A graph in the making, with a cell for each name that was asked for. -/
structure Surveyor where
  graph : Graph
  cells : Cells

namespace Surveyor

def ofGraph (g : Graph) : Surveyor where
  graph := g.addState State.empty
  cells := .seeded (g.stateFor State.empty)

/-- The survey of the names that are settled. -/
def view (p : Surveyor) : Survey :=
  ⟨p.graph, p.cells.settled⟩

/-- The state that a recorded name denotes. The name has a cell before anything is read. -/
def resolve (settings : Settings) (files : Tree) (p : Surveyor) (raw : String) :
    Surveyor × Except LoadError State :=
  let name := Text.trim raw
  let cells := p.cells.opened name
  match cells.held? name with
  | some state => (⟨p.graph, cells⟩, .ok state)
  | none =>
    match Survey.lookUp settings files p.graph name with
    | .error e => (⟨p.graph, cells⟩, .error e)
    | .ok (graph, state) => (⟨graph, cells.filled name state⟩, .ok state)

def settled? (p : Surveyor) (raw : String) : Option State :=
  let name := Text.trim raw
  match p.cells.held? name with
  | some state => some state
  | none => p.graph.stateNamed? name

def step (p : Surveyor) : Survey.Operation → Surveyor × Survey.Answer
  | .resolve settings files raw =>
    let resolved := p.resolve settings files raw
    (resolved.1, .state resolved.2)
  | .settled raw => (p, .found (p.settled? raw))
  | .addStateRows rows =>
    let added := addStateRows p.graph rows
    ({ p with graph := added.1 }, .state (.ok added.2))
  | .clear => (ofGraph p.graph, .done)
  | .addRow r =>
    let added := addRow p.graph [] r
    ({ p with graph := added.1 }, .widget added.2)
  | .widgetNamed raw => (p, .target (p.graph.widgetNamed? raw))
  | .action index r result => (p, .action (Load.resolve p.view index r result))

def serve (p : Surveyor) : Request α → Surveyor × Reply α
  | .asked op =>
    let stepped := p.step op
    (stepped.1, .answered stepped.2)
  | .graph act =>
    let acted := act p.graph
    ({ p with graph := acted.1 }, .graph acted.2)

end Surveyor

/-! ## Look-ups that fail -/

namespace Survey

variable {settings : Settings} {files : Tree} {s : Survey} {raw : String} {e : LoadError}

theorem lookUp_error_iff {g : Graph} {name : String} :
    lookUp settings files g name = .error e ↔ g.stateNamed? name = none ∧
      ((files.exists? (settings.statePath name) = false ∧
          e = .missingStateRecord name (settings.statePath name)) ∨
        files.exists? (settings.statePath name) = true ∧
          ∃ e', readAll files (settings.statePath name) settings.widgetLayout
            settings.separator = .error e' ∧ e = .read e') := by
  unfold lookUp
  cases g.stateNamed? name with
  | some state => simp
  | none =>
    dsimp only
    cases files.exists? (settings.statePath name) with
    | false => simp [eq_comm]
    | true =>
      cases readAll files (settings.statePath name) settings.widgetLayout settings.separator with
      | error e' => simp [eq_comm]
      | ok rows => simp

/-- A look-up fails if the name is not settled and its file is not there or cannot be read. -/
theorem resolve_error_iff : (s.resolve settings files raw).2 = .error e ↔
    s.settled? raw = none ∧
      ((files.exists? (settings.statePath (Text.trim raw)) = false ∧
          e = .missingStateRecord (Text.trim raw) (settings.statePath (Text.trim raw))) ∨
        files.exists? (settings.statePath (Text.trim raw)) = true ∧
          ∃ e', readAll files (settings.statePath (Text.trim raw)) settings.widgetLayout
            settings.separator = .error e' ∧ e = .read e') := by
  unfold resolve settled?
  dsimp only
  cases s.known.find? (Text.trim raw) with
  | some state => simp
  | none =>
    dsimp only
    rw [← lookUp_error_iff]
    cases lookUp settings files s.graph (Text.trim raw) with
    | error e' => simp
    | ok found => simp

/-- Once its file is repaired, the name denotes what the file says. -/
theorem resolve_repaired {rows : List Record} (hsettled : s.settled? raw = none)
    (hexists : files.exists? (settings.statePath (Text.trim raw)) = true)
    (hrows : readAll files (settings.statePath (Text.trim raw)) settings.widgetLayout
      settings.separator = .ok rows) :
    (s.resolve settings files raw).2 = .ok (addStateRows s.graph rows).2 := by
  unfold settled? at hsettled
  dsimp only at hsettled
  unfold resolve lookUp
  cases hknown : s.known.find? (Text.trim raw) with
  | some state =>
    rw [hknown] at hsettled
    cases hsettled
  | none =>
    rw [hknown] at hsettled
    simp only [hknown, hsettled, hexists, hrows, if_true]

/-- The same graph, with the same names settled. -/
structure Agrees (s s' : Survey) : Prop where
  graph : s.graph = s'.graph
  known : ∀ name, s.known.find? name = s'.known.find? name

theorem Agrees.settled? {s' : Survey} (h : s.Agrees s') (raw : String) :
    s.settled? raw = s'.settled? raw := by
  unfold Survey.settled?
  simp only [h.known, h.graph]

theorem Agrees.action {s' : Survey} (h : s.Agrees s') (index : Nat) (r : Record)
    (result : State) : Load.resolve s index r result = Load.resolve s' index r result := by
  unfold Load.resolve
  simp only [h.settled?, h.graph]

end Survey

/-! ## Surveyors and surveys -/

namespace Surveyor

variable {settings : Settings} {files : Tree} {p : Surveyor} {s : Survey} {raw : String}
  {e : LoadError}

theorem ofGraph_view (g : Graph) : (ofGraph g).view.Agrees (Survey.ofGraph g) where
  graph := rfl
  known name := by
    rw [view, Cells.find?_settled, Survey.ofGraph, Registry.find?_register]
    simp only [ofGraph, Cells.seeded, Cells.held?, List.lookup_cons, List.lookup_nil]
    by_cases hname : name = StateId.empty.text
    · rw [hname]
      simp [Registry.find?_empty]
    · have hb : (name == StateId.empty.text) = false := by simpa using hname
      simp [hb, hname, Registry.find?_empty]

theorem settled?_view (h : p.view.Agrees s) (raw : String) : p.settled? raw = s.settled? raw := by
  have hheld := h.known (Text.trim raw)
  rw [view, Cells.find?_settled] at hheld
  have hgraph : p.graph = s.graph := h.graph
  unfold settled? Survey.settled?
  cases hfound : s.known.find? (Text.trim raw) with
  | some state => simp only [hheld, hfound]
  | none => simp only [hheld, hfound, hgraph]

/-- Opening a cell and filling it is registering the name. -/
theorem resolve_view (settings : Settings) (files : Tree) (raw : String)
    (h : p.view.Agrees s) :
    (p.resolve settings files raw).1.view.Agrees (s.resolve settings files raw).1 ∧
      (p.resolve settings files raw).2 = (s.resolve settings files raw).2 := by
  have hheld : ∀ name, (p.cells.opened (Text.trim raw)).held? name = s.known.find? name := by
    intro name
    rw [Cells.held?_opened, ← Cells.find?_settled]
    exact h.known name
  have hopened : Survey.Agrees (view ⟨p.graph, p.cells.opened (Text.trim raw)⟩) s :=
    ⟨h.graph, fun name => by rw [view, Cells.find?_settled, hheld]⟩
  have hgraph : p.graph = s.graph := h.graph
  unfold resolve Survey.resolve
  simp only [hheld]
  cases hknown : s.known.find? (Text.trim raw) with
  | some state => exact ⟨hopened, rfl⟩
  | none =>
    simp only [hgraph]
    rw [hgraph] at hopened
    cases Survey.lookUp settings files s.graph (Text.trim raw) with
    | error e => exact ⟨hopened, rfl⟩
    | ok found =>
      refine ⟨⟨rfl, fun name => ?_⟩, rfl⟩
      rw [view, Cells.find?_settled, Cells.held?_filled (p.cells.mem_opened _),
        Registry.find?_register, hheld, hheld]

/-- What is done to the graph alone settles no name. -/
theorem withGraph_view (h : p.view.Agrees s) (g : Graph) :
    (view { p with graph := g }).Agrees { s with graph := g } :=
  ⟨rfl, fun name => h.known name⟩

theorem step_view (h : p.view.Agrees s) (op : Survey.Operation) :
    (p.step op).1.view.Agrees (s.step op).1 ∧ (p.step op).2 = (s.step op).2 := by
  have hgraph : p.graph = s.graph := h.graph
  cases op with
  | resolve settings files raw =>
    obtain ⟨hagrees, hanswer⟩ := resolve_view settings files raw h
    exact ⟨hagrees, congrArg Survey.Answer.state hanswer⟩
  | settled raw => exact ⟨h, congrArg Survey.Answer.found (settled?_view h raw)⟩
  | addStateRows rows =>
    simp only [step, Survey.step, hgraph, and_true]
    exact withGraph_view h _
  | clear =>
    simp only [step, Survey.step, Survey.clear, hgraph, and_true]
    exact ofGraph_view s.graph
  | addRow r =>
    simp only [step, Survey.step, hgraph, and_true]
    exact withGraph_view h _
  | widgetNamed raw =>
    simp only [step, Survey.step, hgraph, and_true]
    exact h
  | action index r result => exact ⟨h, congrArg Survey.Answer.action (h.action index r result)⟩

theorem serve_view (h : p.view.Agrees s) (request : Request α) :
    (p.serve request).1.view.Agrees (s.serve request).1 ∧
      (p.serve request).2 = (s.serve request).2 := by
  cases request with
  | asked op =>
    obtain ⟨hagrees, hanswer⟩ := step_view h op
    exact ⟨hagrees, congrArg Reply.answered hanswer⟩
  | graph act =>
    have hgraph : p.graph = s.graph := h.graph
    simp only [serve, Survey.serve, hgraph, and_true]
    exact withGraph_view h _

/-! ## A look-up that failed -/

/-- One who was asked all this, from the empty graph on. -/
def after (before : List (Request α)) : Surveyor :=
  (serveAll serve (ofGraph .initial) before).1

theorem serveAll_view (h : p.view.Agrees s) (requests : List (Request α)) :
    (serveAll serve p requests).1.view.Agrees (serveAll Survey.serve s requests).1 ∧
      (serveAll serve p requests).2 = (serveAll Survey.serve s requests).2 :=
  serveAll_related (R := fun (p : Surveyor) s => p.view.Agrees s)
    (fun _ _ request h => serve_view h request) requests h

/-- The survey that was asked the same. -/
def surveyAfter (before : List (Request α)) : Survey :=
  (serveAll Survey.serve (.ofGraph .initial) before).1

theorem after_view (before : List (Request α)) :
    (after before).view.Agrees (surveyAfter before) :=
  (serveAll_view (ofGraph_view .initial) before).1

/-- A look-up that failed cannot be told from one that never was: the graph and all that is settled
are as before, and so is every answer from then on. Once the file can be read, the name denotes what
it says. -/
theorem resolve_refused (before : List (Request α)) {raw : String} {e : LoadError}
    (h : ((after before).resolve settings files raw).2 = .error e) :
    let p := after before
    let s := surveyAfter before
    let failed := (p.resolve settings files raw).1
    s.resolve settings files raw = (s, .error e) ∧
      failed.graph = p.graph ∧ p.graph = s.graph ∧
      (∀ text, failed.settled? text = p.settled? text ∧ p.settled? text = s.settled? text) ∧
      (∀ later : List (Request α),
        (serveAll serve failed later).1.graph = (serveAll serve p later).1.graph ∧
        (serveAll serve failed later).2 = (serveAll serve p later).2 ∧
        (serveAll serve p later).2 = (serveAll Survey.serve s later).2) ∧
      ∀ files' rows, files'.exists? (settings.statePath (Text.trim raw)) = true →
        readAll files' (settings.statePath (Text.trim raw)) settings.widgetLayout
          settings.separator = .ok rows →
        (failed.resolve settings files' raw).2 = .ok (addStateRows p.graph rows).2 := by
  intro p s failed
  have hp : p.view.Agrees s := after_view before
  obtain ⟨hview, hanswer⟩ := resolve_view settings files raw hp
  have herror : (s.resolve settings files raw).2 = .error e := hanswer.symm.trans h
  have hsame : (s.resolve settings files raw).1 = s := Survey.resolve_error herror
  have hfailed : failed.view.Agrees s := by
    rw [hsame] at hview
    exact hview
  have hgraph : failed.graph = p.graph := hfailed.graph.trans hp.graph.symm
  refine ⟨Prod.ext hsame herror, hgraph, hp.graph, fun text => ?_, fun later => ?_, ?_⟩
  · exact ⟨(settled?_view hfailed text).trans (settled?_view hp text).symm, settled?_view hp text⟩
  · obtain ⟨hlater, hanswers⟩ := serveAll_view hfailed later
    obtain ⟨hlater', hanswers'⟩ := serveAll_view hp later
    exact ⟨hlater.graph.trans hlater'.graph.symm, hanswers.trans hanswers'.symm, hanswers'⟩
  · intro files' rows hexists hrows
    have hsettled : s.settled? raw = none := (Survey.resolve_error_iff.1 herror).1
    rw [(resolve_view _ _ _ hfailed).2, Survey.resolve_repaired hsettled hexists hrows, ← hp.graph]
    rfl

def raggedSettings : Settings :=
  .ofBase ⟨"m"⟩

/-- A directory with one state file. -/
def raggedFiles (content : String) : Tree where
  cwd := ["work"]
  nodes := [
    (["work"], .directory),
    (["work", "m"], .directory),
    (["work", "m", "states"], .directory),
    (["work", "m", "states", "s1.csv"], .file (Text.utf8 content))]

/-- The second row is cut off. The first one would register a widget and an alias of it. -/
def raggedContent : String :=
  "b;Button;ok;app;/b;OK;true;;;;;1:1:2:2\nc;Butt"

def repairedContent : String :=
  "b;Button;ok;app;/b;OK;true;;;;;1:1:2:2\n"

def repairedRows : List Record :=
  [⟨1, ["b", "Button", "ok", "app", "/b", "OK", "true", "", "", "", "", "1:1:2:2"]⟩]

/-- A look-up of the name that failed for want of any file. -/
def raggedBefore : List (Request Unit) :=
  [.asked (.resolve raggedSettings .empty "s1")]

theorem resolve_refused_ragged :
    let p := after raggedBefore
    let failed := (p.resolve raggedSettings (raggedFiles raggedContent) "s1").1
    (p.resolve raggedSettings (raggedFiles raggedContent) "s1").2 =
        .error (.read (.malformed "widget" ⟨"m/states/s1.csv"⟩ 2 12 2)) ∧
      failed.graph = p.graph ∧
      (failed.resolve raggedSettings (raggedFiles repairedContent) "s1").2 =
        .ok (addStateRows p.graph repairedRows).2 := by
  have herror : ((after raggedBefore).resolve raggedSettings (raggedFiles raggedContent) "s1").2 =
      .error (.read (.malformed "widget" ⟨"m/states/s1.csv"⟩ 2 12 2)) := by decide +kernel
  have hrows : readAll (raggedFiles repairedContent) (raggedSettings.statePath (Text.trim "s1"))
      raggedSettings.widgetLayout raggedSettings.separator = .ok repairedRows := by decide +kernel
  have hexists : (raggedFiles repairedContent).exists?
      (raggedSettings.statePath (Text.trim "s1")) = true := by decide +kernel
  obtain ⟨-, hgraph, -, -, -, hrepaired⟩ := resolve_refused raggedBefore herror
  exact ⟨herror, hgraph, hrepaired _ _ hexists hrows⟩

end Surveyor
end Load
end ScreenGraph
