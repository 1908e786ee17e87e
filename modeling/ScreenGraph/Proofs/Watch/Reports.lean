import ScreenGraph.Proofs.Text.Plain
import ScreenGraph.Proofs.Text.Table
import ScreenGraph.Proofs.Watch.Delivery

/-!
# ScreenGraph.Proofs.Watch.Reports

The reports of watchers as tables.

The report of a click log is the table of its rows, and that of a tally the table of the kinds it
has counted. Ids and numbers are plain, so it is the recorded texts that can break a table: those of
widgets, the logs, and the names of kinds.

* `ClickLog.report_tabulates`, `Tally.report_tabulates`: when a report can be cut into its cells.
* `Tally.Proper`: each kind has one count, and it has been counted.
-/

namespace ScreenGraph

open Graph Identity Text

/-! ## The order of kinds -/

namespace Graph.ActionKind

/-- The rank of a kind, then the characters of a name of its own. -/
def sortKey : ActionKind → List Nat
  | other name => (other name).rank :: name.toList.map Char.toNat
  | kind => [kind.rank]

theorem le_eq (a b : ActionKind) : a.le b = lexLe id a.sortKey b.sortKey := by
  cases a <;> cases b <;> simp [le, rank, sortKey, lexLe, lexLe_map]

theorem sortKey_inj {a b : ActionKind} (h : a.sortKey = b.sortKey) : a = b := by
  have hname : ∀ m n : String, m.toList.map Char.toNat = n.toList.map Char.toNat → m = n := by
    intro m n hmap
    exact String.toList_inj.1 ((List.map_inj_right fun _ _ => Char.toNat_inj.1).1 hmap)
  cases a <;> cases b <;> simp [rank, sortKey] at h ⊢
  exact hname _ _ h

theorem le_trans (a b c : ActionKind) (h : a.le b = true) (h' : b.le c = true) :
    a.le c = true := by
  rw [le_eq] at h h' ⊢
  exact lexLe_trans _ _ _ h h'

theorem le_total (a b : ActionKind) : a.le b = true ∨ b.le a = true := by
  simp only [le_eq]
  exact lexLe_total _ _

theorem le_antisymm (a b : ActionKind) (h : a.le b = true) (h' : b.le a = true) : a = b := by
  rw [le_eq] at h h'
  exact sortKey_inj (lexLe_antisymm (fun _ _ => id) _ _ h h')

end Graph.ActionKind

namespace Watch

/-- Fixed cells are checked by computing. -/
theorem fits_all {cells : List String} (h : cells.all (·.toList.all isPlain) = true) :
    ∀ cell ∈ cells, Fits '\t' cell :=
  fun cell hcell => fits_plain (by decide) (plain_of_all (List.all_eq_true.1 h cell hcell))

theorem fits_number (n : Nat) : Fits '\t' (toString n) := by
  refine fits_plain (by decide) ?_
  intro c hc
  exact integerText_plain n c (by simpa [integerText] using hc)

/-! ## Click logs -/

namespace ClickRow

/-- The cells of a row: its trace, its action number, its text, its widget and its log. -/
def cells (r : ClickRow) : List String :=
  [r.trace.text, toString r.index, r.text, (r.target.map Ident.text).getD "", r.log]

theorem line_eq (r : ClickRow) : r.line = join '\t' r.cells ++ "\n" := by
  apply String.toList_inj.1
  simp [line, cells, join, joinChars]
  rfl

theorem fits_cells {r : ClickRow} :
    (∀ cell ∈ r.cells, Fits '\t' cell) ↔ Fits '\t' r.text ∧ Fits '\t' r.log := by
  have htrace : Fits '\t' r.trace.text := r.trace.fits (by decide)
  have hwidget : Fits '\t' ((r.target.map Ident.text).getD "") := by
    cases r.target with
    | none => exact fits_empty '\t'
    | some id => exact id.fits (by decide)
  simp only [cells, List.forall_mem_cons, htrace, fits_number, hwidget, List.not_mem_nil,
    false_implies, implies_true, and_true, true_and]

end ClickRow

namespace ClickLog

def header : List String :=
  ["trace", "actionNr", "text", "widget", "log"]

theorem report_eq (l : ClickLog) : l.report = table (header :: l.rows.map ClickRow.cells) := by
  have hlines : l.rows.map ClickRow.line = l.rows.map fun r => join '\t' r.cells ++ "\n" :=
    List.map_congr_left fun r _ => r.line_eq
  have hheader : "trace\tactionNr\ttext\twidget\tlog\n" = join '\t' header ++ "\n" := by
    decide +kernel
  unfold report table
  rw [List.map_cons, List.map_map, String.join_cons, hlines, hheader]
  rfl

theorem report_tabulates (l : ClickLog) :
    Tabulates l.report (header :: l.rows.map ClickRow.cells) ↔
      ∀ r ∈ l.rows, Fits '\t' r.text ∧ Fits '\t' r.log := by
  have hheader : ∀ cell ∈ header, Fits '\t' cell := fits_all (by decide)
  rw [report_eq, tabulates_table (by simp [header, ClickRow.cells]), List.forall_mem_cons,
    List.forall_mem_map]
  simp only [ClickRow.fits_cells]
  exact ⟨fun h => h.2, fun h => ⟨hheader, h⟩⟩

end ClickLog

/-! ## Tallies -/

namespace Tally

variable {t : Tally} {k kind : ActionKind}

def header : List String :=
  ["action", "count"]

/-- The kinds that have a count. -/
def kinds (t : Tally) : List ActionKind :=
  t.counts.map Prod.fst

/-- Each kind has one count, and it has been counted. -/
structure Proper (t : Tally) : Prop where
  ordered : t.kinds.Pairwise fun a b => a.le b = true ∧ a ≠ b
  counted : ∀ e ∈ t.counts, 0 < e.2

theorem proper_empty : empty.Proper :=
  ⟨.nil, nofun⟩

theorem kinds_bump (t : Tally) (kind : ActionKind) :
    (t.bump kind).kinds = insertDistinct ActionKind.le kind t.kinds := by
  obtain ⟨counts⟩ := t
  simp only [bump, kinds]
  induction counts with
  | nil => rfl
  | cons e rest ih =>
    obtain ⟨k, n⟩ := e
    simp only [bumpIn, List.map_cons, insertDistinct, ← ih]
    split
    · rfl
    · split <;> rfl

theorem Proper.bump (ht : t.Proper) (kind : ActionKind) : (t.bump kind).Proper where
  ordered := by
    rw [kinds_bump]
    exact insertDistinct_pairwise ActionKind.le_trans ActionKind.le_total ht.ordered
      ActionKind.le_antisymm
  counted := by
    obtain ⟨counts⟩ := t
    have hcounted := ht.counted
    simp only [Tally.bump] at hcounted ⊢
    clear ht
    induction counts with
    | nil => simp [bumpIn]
    | cons e rest ih =>
      obtain ⟨k, n⟩ := e
      obtain ⟨hfirst, hrest⟩ := List.forall_mem_cons.1 hcounted
      rw [bumpIn]
      split
      · exact List.forall_mem_cons.2 ⟨Nat.succ_pos n, hrest⟩
      · split
        · exact List.forall_mem_cons.2 ⟨Nat.one_pos, hcounted⟩
        · exact List.forall_mem_cons.2 ⟨hfirst, ih hrest⟩

theorem Proper.observe (ht : t.Proper) (c : Commit) : (t.observe c).Proper := by
  unfold Tally.observe
  generalize c.actions = as
  induction as generalizing t with
  | nil => exact ht
  | cons a as ih => exact ih (ht.bump a.1.kind)

theorem Proper.observeAll (ht : t.Proper) {cs : List Commit} {t' : Tally}
    (h : Watcher.observeAll cs (.tally t) = .tally t') : t'.Proper := by
  induction cs generalizing t with
  | nil =>
    cases h
    exact ht
  | cons c cs ih => exact ih (ht.observe c) h

theorem Proper.nodup (ht : t.Proper) : t.kinds.Nodup :=
  ht.ordered.imp And.right

theorem Proper.count_of_mem (ht : t.Proper) {n : Nat} (h : (k, n) ∈ t.counts) : t.count k = n := by
  have hkinds := ht.nodup
  obtain ⟨counts⟩ := t
  simp only [kinds, count] at h hkinds ⊢
  clear ht
  induction counts with
  | nil => cases h
  | cons e rest ih =>
    obtain ⟨hnew, hrest⟩ := List.nodup_cons.1 hkinds
    rcases List.mem_cons.1 h with rfl | h
    · have hno : rest.filter (fun e => decide (e.1 = k)) = [] := by
        refine List.filter_eq_nil_iff.2 fun e he hk => hnew ?_
        exact List.mem_map.2 ⟨e, he, of_decide_eq_true hk⟩
      simp [hno]
    · have hne : e.1 ≠ k := by
        intro hk
        exact hnew (hk ▸ List.mem_map_of_mem h)
      rw [List.filter_cons_of_neg (by simpa using hne)]
      exact ih h hrest

theorem Proper.mem_kinds_iff (ht : t.Proper) : k ∈ t.kinds ↔ 0 < t.count k := by
  constructor
  · intro h
    obtain ⟨⟨_, n⟩, he, rfl⟩ := List.mem_map.1 h
    rw [ht.count_of_mem he]
    exact ht.counted _ he
  · intro h
    by_contra hno
    have hnone : t.counts.filter (fun e => decide (e.1 = k)) = [] := by
      refine List.filter_eq_nil_iff.2 fun e he hk => hno ?_
      exact List.mem_map.2 ⟨e, he, of_decide_eq_true hk⟩
    simp [count, hnone] at h

/-- The lines of the report, by the kinds. -/
def rows (t : Tally) : List (List String) :=
  t.kinds.map fun kind => [kind.text, toString (t.count kind)]

theorem Proper.report_eq (ht : t.Proper) : t.report = table (header :: t.rows) := by
  have hlines : t.counts.map (fun e => s!"{e.1.text}\t{e.2}\n") =
      t.rows.map fun row => join '\t' row ++ "\n" := by
    rw [rows, kinds, List.map_map, List.map_map]
    refine List.map_congr_left fun e he => ?_
    obtain ⟨kind, n⟩ := e
    simp only [Function.comp_def, ht.count_of_mem he]
    apply String.toList_inj.1
    simp [join, joinChars]
    rfl
  have hheader : "action\tcount\n" = join '\t' header ++ "\n" := by decide +kernel
  unfold report table
  rw [List.map_cons, String.join_cons, ← hlines, hheader]

theorem Proper.report_tabulates (ht : t.Proper) :
    Tabulates t.report (header :: t.rows) ↔ ∀ kind ∈ t.kinds, Fits '\t' kind.text := by
  have hheader : ∀ cell ∈ header, Fits '\t' cell := fits_all (by decide)
  have hcells : ∀ kind : ActionKind, (∀ cell ∈ [kind.text, toString (t.count kind)],
      Fits '\t' cell) ↔ Fits '\t' kind.text := by
    intro kind
    simp only [List.forall_mem_cons, fits_number, List.not_mem_nil, false_implies, implies_true,
      and_true]
  rw [ht.report_eq, tabulates_table (by simp [header, rows]), List.forall_mem_cons, rows,
    List.forall_mem_map]
  simp only [hcells]
  exact ⟨fun h => h.2, fun h => ⟨hheader, h⟩⟩

end Tally
end Watch
end ScreenGraph
