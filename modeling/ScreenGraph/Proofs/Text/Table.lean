import ScreenGraph.Proofs.Text.Fields

/-!
# ScreenGraph.Proofs.Text.Table

Tables in plain text: a line for each row, with a tab between any two cells.

Nothing is escaped. So the rows can be told from the text exactly if no cell holds a tab or a line
feed.

* `Tabulates`: the lines of a text, cut at their tabs, are the rows.
* `tabulates_table`: when the table of some rows does so.
-/

namespace ScreenGraph
namespace Text

/-- The text is one line for each row, and its tabs cut that line into the cells of the row. -/
def Tabulates (text : String) (rows : List (List String)) : Prop :=
  ∃ lines, splitAll text '\n' = lines ++ [""] ∧ lines.map (splitAll · '\t') = rows

/-- Each row on a line of its own. -/
def table (rows : List (List String)) : String :=
  String.join (rows.map fun row => join '\t' row ++ "\n")

variable {text : String} {rows : List (List String)}

/-- What is cut out of a text holds nothing that it is cut at. -/
theorem Tabulates.fits (h : Tabulates text rows) : ∀ row ∈ rows, ∀ cell ∈ row, Fits '\t' cell := by
  obtain ⟨lines, hlines, rfl⟩ := h
  intro row hrow cell hcell
  obtain ⟨line, hline, rfl⟩ := List.mem_map.1 hrow
  have hpart : line ∈ splitAll text '\n' := by
    rw [hlines]
    exact List.mem_append_left _ hline
  obtain ⟨htab, hsub⟩ := mem_splitAll hcell
  exact ⟨htab, fun hfeed => (mem_splitAll hpart).1 (hsub _ hfeed)⟩

theorem joinChars_closed (sep : Char) (fs : List (List Char)) :
    joinChars sep (fs ++ [[]]) = fs.flatMap (· ++ [sep]) := by
  induction fs with
  | nil => rfl
  | cons f fs ih =>
    obtain ⟨g, gs, hfs⟩ := List.exists_cons_of_ne_nil (l := fs ++ [[]]) (by simp)
    rw [List.cons_append, List.flatMap_cons, ← ih, hfs, joinChars, List.append_assoc]
    rfl

/-- Behind the last line feed comes an empty field. -/
theorem table_eq_join (rows : List (List String)) :
    table rows = join '\n' (rows.map (join '\t') ++ [""]) := by
  apply String.toList_inj.1
  rw [table, join, String.toList_ofList, List.map_append, List.map_singleton, String.toList_empty,
    joinChars_closed, String.toList_join, List.map_map, List.flatMap_map, List.flatMap_map]
  simp

theorem tabulates_table (hrows : ∀ row ∈ rows, row ≠ []) :
    Tabulates (table rows) rows ↔ ∀ row ∈ rows, ∀ cell ∈ row, Fits '\t' cell := by
  refine ⟨Tabulates.fits, fun hfits => ⟨rows.map (join '\t'), ?_, ?_⟩⟩
  · rw [table_eq_join]
    refine splitAll_join (by simp) fun line hline => ?_
    rcases List.mem_append.1 hline with hline | hline
    · obtain ⟨row, hrow, rfl⟩ := List.mem_map.1 hline
      rw [join, String.toList_ofList]
      intro hfeed
      rcases mem_joinChars hfeed with hsep | ⟨f, hf, hfeed⟩
      · cases hsep
      · obtain ⟨cell, hcell, rfl⟩ := List.mem_map.1 hf
        exact (hfits row hrow cell hcell).lineFeed hfeed
    · rw [List.mem_singleton.1 hline]
      simp
  · rw [List.map_map]
    refine (List.map_congr_left fun row hrow => ?_).trans (List.map_id rows)
    exact splitAll_join (hrows row hrow) fun cell hcell => (hfits row hrow cell hcell).separator

end Text
end ScreenGraph
