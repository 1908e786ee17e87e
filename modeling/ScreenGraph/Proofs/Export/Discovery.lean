import ScreenGraph.Load.Run
import ScreenGraph.Proofs.Export.Files

/-!
# ScreenGraph.Proofs.Export.Discovery

The trace files that are found in a directory.

An exported graph is found again, one file for each trace. A name that spells its id as ids are
written has the place among the names that the written name of the id has, whatever ending the
name has.

* `discover_written`: what is found where a graph was exported to.
* `discover_ordered`: the traces of any directory come in the order of their written names.
-/

namespace ScreenGraph

open Export Files Graph Identity Text

/-! ## Order -/

/-- Of two names that start differently, the starts decide. -/
theorem lexLe_append_congr {α : Type} {key : α → Nat} (inj : ∀ a b, key a = key b → a = b)
    {p q : List α} (hlen : p.length = q.length) (hne : p ≠ q) {x y : List α} (x' y' : List α)
    (h : lexLe key (p ++ x) (q ++ y) = true) : lexLe key (p ++ x') (q ++ y') = true := by
  induction p generalizing q with
  | nil =>
    cases q with
    | nil => exact absurd rfl hne
    | cons b q => cases hlen
  | cons a p ih =>
    cases q with
    | nil => cases hlen
    | cons b q =>
      simp only [List.cons_append, lexLe, Bool.or_eq_true, Bool.and_eq_true,
        decide_eq_true_eq] at h ⊢
      rcases h with h | ⟨h, hrest⟩
      · exact .inl h
      · have hab : a = b := inj a b h
        refine .inr ⟨h, ih (Nat.succ.inj hlen) (fun he => hne (by rw [hab, he])) hrest⟩

namespace Export

theorem nameLe_refl (a : String) : nameLe a a = true :=
  (lexLe_total a.toList a.toList).elim (fun h => h) fun h => h

theorem nameLe_antisymm {a b : String} (h : nameLe a b = true) (h' : nameLe b a = true) :
    a = b :=
  String.toList_inj.1 (lexLe_antisymm (fun _ _ he => Char.toNat_inj.1 he) _ _ h h')

end Export

theorem Files.Tree.list_ordered {t : Tree} {p : Path} {names : List String}
    (h : t.list p = .ok names) : names.Pairwise (nameLe · · = true) := by
  unfold Tree.list at h
  split at h
  · cases h
  · split at h
    · cases h
    · cases h
    · cases h
      exact sortBy_pairwise (fun _ _ _ => lexLe_trans _ _ _) (fun _ _ => lexLe_total _ _) _

/-! ## Names of trace files -/

namespace Settings

theorem stem_append {cs ext : List Char} (h : '.' ∉ ext) : stem (cs ++ '.' :: ext) = cs := by
  have hcontains : (cs ++ '.' :: ext).contains '.' = true := by simp
  have hreverse : (cs ++ '.' :: ext).reverse = ext.reverse ++ '.' :: cs.reverse := by simp
  have hall : ∀ c ∈ ext.reverse, decide (c ≠ '.') = true := by
    intro c hc
    have hne : c ≠ '.' := by
      intro he
      exact h (he ▸ List.mem_reverse.1 hc)
    simpa using hne
  unfold stem
  rw [if_pos hcontains, hreverse, List.dropWhile_append_of_pos hall,
    List.dropWhile_cons_of_neg (by simp)]
  simp

theorem stem_append_exists (name : List Char) : ∃ ext, name = stem name ++ ext := by
  unfold stem
  split
  · obtain ⟨front, hfront⟩ := (List.dropWhile_suffix (p := (· ≠ '.')) (l := name.reverse))
    have hsuffix := (List.drop_suffix 1 (name.reverse.dropWhile (· ≠ '.'))).trans
      ⟨front, hfront⟩
    obtain ⟨back, hback⟩ := hsuffix
    refine ⟨back.reverse, ?_⟩
    rw [← List.reverse_append, hback, List.reverse_reverse]
  · exact ⟨[], by simp⟩

/-- The name has its id in it as the id is written. -/
def Spells (settings : Settings) (name : String) : Prop :=
  ∀ id ∈ settings.traceIdOfName? name, (settings.afterPrefix? name).map stem = some id.text.toList

variable {settings : Settings}

theorem afterPrefix?_eq_some (settings : Settings) {name : String} {rest : List Char} :
    settings.afterPrefix? name = some rest ↔
      name.toList = settings.tracePrefix.toList ++ rest := by
  unfold afterPrefix?
  dsimp only
  split
  · rename_i hstart
    obtain ⟨back, hback⟩ := List.isPrefixOf_iff_prefix.1 hstart
    rw [← hback, List.drop_left]
    simp [eq_comm]
  · rename_i hstart
    constructor
    · intro h
      cases h
    · intro h
      exact absurd (List.isPrefixOf_iff_prefix.2 ⟨rest, h.symm⟩) hstart

theorem afterPrefix?_traceName (hstandard : Standard settings) (id : TraceId) :
    settings.afterPrefix? (traceName id) = some (id.text.toList ++ '.' :: ['c', 's', 'v']) := by
  have hext : ".csv".toList = '.' :: ['c', 's', 'v'] := by decide +kernel
  rw [afterPrefix?_eq_some, hstandard.tracePrefix, traceName, String.toList_append,
    String.toList_append, hext, List.append_assoc]

theorem traceIdOfName?_traceName (hstandard : Standard settings) (id : TraceId) :
    settings.traceIdOfName? (traceName id) = some id := by
  unfold traceIdOfName?
  rw [afterPrefix?_traceName hstandard]
  dsimp only
  rw [stem_append (by decide), String.ofList_toList]
  have hread : Uuid.read? id.text = some id.uuid := id.uuid.read?_text
  rw [hread]
  rfl

theorem afterPrefix?_states (hstandard : Standard settings) :
    settings.afterPrefix? "states" = none := by
  have hstart : "trace".toList.isPrefixOf "states".toList = false := by decide +kernel
  unfold afterPrefix?
  rw [hstandard.tracePrefix]
  dsimp only
  rw [hstart]
  rfl

/-- A name that spells its id lies where the written name of the id does. -/
theorem nameLe_traceName (hstandard : Standard settings) {a b : String} {i j : TraceId}
    (ha : settings.Spells a) (hb : settings.Spells b) (hi : settings.traceIdOfName? a = some i)
    (hj : settings.traceIdOfName? b = some j) (h : nameLe a b = true) :
    nameLe (traceName i) (traceName j) = true := by
  have hsplit : ∀ {name : String} {id : TraceId}, settings.Spells name →
      settings.traceIdOfName? name = some id →
      ∃ ext, name.toList = ("trace".toList ++ id.text.toList) ++ ext := by
    intro name id hspells hid
    obtain ⟨rest, hrest, hstem⟩ := Option.map_eq_some_iff.1 (hspells id hid)
    obtain ⟨ext, hext⟩ := stem_append_exists rest
    refine ⟨ext, ?_⟩
    rw [(settings.afterPrefix?_eq_some).1 hrest, hstandard.tracePrefix, List.append_assoc, ← hstem,
      ← hext]
  obtain ⟨x, hx⟩ := hsplit ha hi
  obtain ⟨y, hy⟩ := hsplit hb hj
  by_cases hij : i = j
  · rw [hij]
    exact nameLe_refl _
  · unfold nameLe at h ⊢
    rw [hx, hy] at h
    simp only [traceName, String.toList_append]
    refine lexLe_append_congr (fun _ _ he => Char.toNat_inj.1 he) ?_ ?_ _ _ h
    · simp only [List.length_append, Ident.text, Uuid.text, String.toList_ofList,
        Uuid.chars_length]
    · intro he
      exact hij (Ident.text_injective (String.toList_inj.1 (List.append_cancel_left he)))

end Settings

namespace Load

variable {settings : Settings}

/-- The file that a trace is written to. -/
def sourceOf (settings : Settings) (t : Trace) : Source :=
  ⟨settings.tracePath t.id, t.id⟩

/-- Where a graph was exported to, the files of its traces are found and nothing else. -/
theorem discover_written (hstandard : Standard settings) {names : List String} {ts : List Trace}
    (hperm : names.Perm ("states" :: ts.map fun t => traceName t.id))
    (hnames : names.Pairwise (nameLe · · = true))
    (hts : (ts.map fun t => traceName t.id).Pairwise (nameLe · · = true)) :
    discover settings names = (ts.map (sourceOf settings), []) := by
  let candidate : String → Bool := fun name => (settings.afterPrefix? name).isSome
  have hall : ∀ t : Trace, candidate (traceName t.id) = true := by
    intro t
    simp only [candidate, Settings.afterPrefix?_traceName hstandard, Option.isSome_some]
  have hstates : candidate "states" = false := by
    simp only [candidate, Settings.afterPrefix?_states hstandard, Option.isSome_none]
  have hkept : (ts.map fun t => traceName t.id).filter candidate =
      ts.map fun t => traceName t.id := by
    refine List.filter_eq_self.2 ?_
    intro name hname
    obtain ⟨t, -, rfl⟩ := List.mem_map.1 hname
    exact hall t
  have hcandidates : names.filter candidate = ts.map fun t => traceName t.id := by
    have hfiltered := hperm.filter candidate
    rw [List.filter_cons_of_neg (by simp [hstates]), hkept] at hfiltered
    exact hfiltered.eq_of_pairwise (fun _ _ _ _ => nameLe_antisymm) (hnames.filter _) hts
  have hid : ∀ t : Trace, settings.traceIdOfName? (traceName t.id) = some t.id := by
    intro t
    exact Settings.traceIdOfName?_traceName hstandard t.id
  have hpath : ∀ t : Trace, settings.baseDir.join (traceName t.id) = settings.tracePath t.id := by
    intro t
    rw [Settings.tracePath, hstandard.tracePrefix]
    rfl
  unfold discover
  simp only [candidate] at hcandidates
  rw [hcandidates]
  refine Prod.ext ?_ ?_
  · simp only [List.filterMap_map, Function.comp_def, hid, Option.map_some, hpath]
    rw [List.filterMap_eq_map']
    rfl
  · simp [hid]

/-- The traces of a directory are found in the order of their written names. -/
theorem discover_ordered (hstandard : Standard settings) {names : List String}
    (hnames : names.Pairwise (nameLe · · = true)) (hspells : ∀ name ∈ names, settings.Spells name) :
    ((discover settings names).1.map fun source => traceName source.trace).Pairwise
      (nameLe · · = true) := by
  unfold discover
  rw [List.pairwise_map, List.pairwise_filterMap]
  refine (List.Pairwise.filter _ hnames).imp_of_mem ?_
  intro a b ha hb hle source hsource source' hsource'
  obtain ⟨i, hi, rfl⟩ := Option.map_eq_some_iff.1 hsource
  obtain ⟨j, hj, rfl⟩ := Option.map_eq_some_iff.1 hsource'
  exact Settings.nameLe_traceName hstandard (hspells a (List.mem_filter.1 ha).1)
    (hspells b (List.mem_filter.1 hb).1) hi hj hle

end Load
end ScreenGraph
