import Scaffold.Proofs.Artifact.Interface
import Scaffold.Proofs.Hub.Recognition
import Scaffold.Proofs.Number.Displayed
import Scaffold.Proofs.Text.Reference

/-!
# What the columns of a table call

The columns file imports the helpers that show cells, and the lines of its columns call them.  A
reader finds the calls in the text (`Artifact.cellCalls`) and the imports as those of any module
(`Code.imports`): both have the same helpers, and none is imported twice
(`Artifact.columns_importCalls`).

The names of the resource stand in the beginning of the file (`Artifact.columnsHead`) and are not
checked for line feeds, so the lines are those behind it; if the names have no line feeds, no line
in front of them calls a helper.  Nothing that a column is written from ends a line.
-/

namespace Scaffold

open CodePoint

namespace Artifact

open Code Text

/-! ### The calls of helpers -/

/-- The helper that a line calls to show the cells of a column. -/
def cellCall? (line : Text) : Option Text :=
  (dropStart? "cell: " (line.dropWhile (· = .scalar ' '))).bind fun call =>
    (upTo? (.scalar '(') call).map (·.1)

/-- The helpers that the lines of a text call to show the cells of columns. -/
def cellCalls (t : Text) : List Text := t.lines.filterMap cellCall?

/-- The lines of the columns file in front of the columns. -/
def columnsHead (r : Resource) (helpers : List Text) : List Text :=
  [header,
    importTypeLine "ColumnDef" "@tanstack/react-table",
    importLine (Text.join ", " ("SortableHeader" :: helpers)) "@/components/tables/_column-helpers",
    importTypeLine r.typeName (collectionModule r),
    "",
    "export const " ++ r.name ++ "Columns: ColumnDef<" ++ r.typeName ++ ">[] = ["]

theorem nodup_eraseDups (names : List Text) : names.eraseDups.Nodup := by
  match names with
  | [] => exact List.nodup_nil
  | x :: xs =>
    rw [List.eraseDups_cons, List.nodup_cons]
    exact ⟨by simp [List.mem_eraseDups], nodup_eraseDups _⟩
termination_by names.length
decreasing_by exact Nat.lt_succ_of_le (List.length_filter_le _ _)

/-- The helpers are imported once each. -/
theorem nodup_helperImports (fields : List Field) :
    (Text.ofString "SortableHeader" :: cellHelpers fields).Nodup := by
  refine List.nodup_cons.2 ⟨fun h => ?_, (List.mergeSort_perm _ _).nodup_iff.2 (nodup_eraseDups _)⟩
  obtain ⟨f, -, hf⟩ := List.mem_filterMap.1 (mem_cellHelpers.1 h)
  exact of_cellHelper? (P := fun x => x ≠ Text.ofString "SortableHeader") (by decide) hf rfl

theorem isInline_column (f : Field) : ∀ line ∈ column f, line.IsInline := by
  have hname := Text.isInline_literal f.name
  have hlabel := Text.isInline_literal f.label
  simp only [column, List.flatten_cons, List.forall_mem_append, List.forall_mem_cons]
  refine ⟨⟨by decide, ?_, ?_, List.forall_mem_nil _⟩, ?_, ?_, ?_, ?_,
    ⟨by decide, List.forall_mem_nil _⟩, List.forall_mem_nil _⟩
  · simp only [isInline_append]
    exact ⟨⟨by decide, hname⟩, by decide⟩
  · simp only [isInline_append]
    exact ⟨⟨by decide, hlabel⟩, by decide⟩
  · split
    · rename_i helper h
      refine List.forall_mem_singleton.2 ?_
      simp only [isInline_append]
      exact ⟨⟨⟨⟨by decide, of_cellHelper? (by decide) h⟩, by decide⟩, hname⟩, by decide⟩
    · exact List.forall_mem_nil _
  · split
    · rename_i n h
      refine List.forall_mem_singleton.2 ?_
      simp only [isInline_append]
      exact ⟨⟨by decide, Number.isInline_display n⟩, by decide⟩
    · exact List.forall_mem_nil _
  · split_ifs
    · exact List.forall_mem_singleton.2 (by decide)
    · exact List.forall_mem_nil _
  · split_ifs
    · exact List.forall_mem_singleton.2 (by decide)
    · exact List.forall_mem_nil _

/-- Of the lines of a column only the one for its cells calls a helper. -/
theorem cellCalls_column (f : Field) :
    (column f).filterMap (fun line => cellCall? (line ++ [newline])) = (cellHelper? f).toList := by
  have hcell (helper : Text) (h : cellHelper? f = some helper) : cellCall?
      ("    cell: " ++ helper ++ "(" ++ f.name.literal ++ ")," ++ [newline]) = some helper := by
    have hmark : CodePoint.scalar '(' ∉ helper :=
      of_cellHelper? (P := fun x => CodePoint.scalar '(' ∉ x) (by decide) h
    have hline : Text.ofString "    cell: " ++ helper ++ "(" ++ f.name.literal ++ ")," ++
        [newline] = "    cell: " ++
          (helper ++ CodePoint.scalar '(' :: (f.name.literal ++ ")," ++ [newline])) := by
      simp [ofString]
    rw [hline]
    exact congrArg (Option.map (·.1)) (upTo?_append hmark _)
  rw [column]
  cases hhelper : cellHelper? f with
  | none => split_ifs <;> cases columnWidth? f <;> rfl
  | some helper =>
    have hline : List.filterMap (fun line => cellCall? (line ++ [newline]))
        [Text.ofString "    cell: " ++ helper ++ "(" ++ f.name.literal ++ "),"] = [helper] :=
      List.filterMap_cons_some (f := fun line => cellCall? (line ++ [newline]))
        (hcell helper hhelper)
    -- the line for the cells is the only one that is left
    simp only [List.flatten_cons, List.filterMap_append, hline]
    split_ifs <;> cases columnWidth? f <;> rfl

/-- The columns call the helpers of their fields, one after the other. -/
theorem cellCalls_columns (fields : List Field) :
    cellCalls (unlines (fields.flatMap column ++ [Text.ofString "]"])) =
      fields.filterMap cellHelper? := by
  have hinline : ∀ line ∈ fields.flatMap column ++ [Text.ofString "]"], line.IsInline := by
    refine List.forall_mem_append.2 ⟨fun line hline => ?_, List.forall_mem_singleton.2 (by decide)⟩
    obtain ⟨f, -, hf⟩ := List.mem_flatMap.1 hline
    exact isInline_column f line hf
  rw [cellCalls, lines_unlines hinline, List.filterMap_map, List.filterMap_append,
    List.filterMap_flatMap]
  calc (fields.flatMap fun f => (column f).filterMap (cellCall? ∘ (· ++ [newline]))) ++
        [Text.ofString "]"].filterMap (cellCall? ∘ (· ++ [newline]))
      = (fields.flatMap fun f => (cellHelper? f).toList) ++ [] :=
        congrArg (· ++ []) (List.flatMap_congr fun f _ => cellCalls_column f)
    _ = fields.filterMap cellHelper? := by
        rw [List.append_nil, List.filterMap_eq_flatMap_toList]

/-- The imports of the columns file begin with those of the table and of its helpers. -/
theorem imports_columnsHead (r : Resource) (helpers : List Text)
    (hhelpers : ∀ x ∈ helpers, x.IsName) (ls : List Text) :
    ∃ rest, imports (unlines (columnsHead r helpers ++ ls)) =
      ⟨["ColumnDef"], "@tanstack/react-table"⟩ ::
        ⟨"SortableHeader" :: helpers, "@/components/tables/_column-helpers"⟩ :: rest := by
  have hnames : ∀ x ∈ Text.ofString "SortableHeader" :: helpers, x.IsName :=
    List.forall_mem_cons.2 ⟨by decide, hhelpers⟩
  have hbare : IsBare (Text.join ", " ("SortableHeader" :: helpers)) :=
    isBare_join (by decide) fun x hx => isBare_of_isName (hnames x hx)
  simp only [columnsHead, List.cons_append]
  rw [imports_header, imports_importTypeLine (isBare_fixed (by decide)) (isBare_fixed (by decide)),
    imports_importLine hbare (isBare_fixed (by decide)),
    clauseNames_join (List.cons_ne_nil _ _) hnames, clauseNames_type (of_ofList IsName (by decide))]
  exact ⟨_, rfl⟩

theorem cellCalls_append {s : Text} (hs : s.IsClosed) (t : Text) :
    cellCalls (s ++ t) = cellCalls s ++ cellCalls t := by
  rw [cellCalls, lines_append hs, List.filterMap_append]
  rfl

/-- The beginning of the file calls no helper. -/
theorem cellCalls_columnsHead {r : Resource} (hr : r.HasInlineNames) {helpers : List Text}
    (hhelpers : ∀ x ∈ helpers, x.IsName) : cellCalls (unlines (columnsHead r helpers)) = [] := by
  have hnames : IsBare (Text.join ", " ("SortableHeader" :: helpers)) :=
    isBare_join (by decide) (List.forall_mem_cons.2
      ⟨by decide, fun x hx => isBare_of_isName (hhelpers x hx)⟩)
  have htype : r.typeName.IsInline := Hub.isInline_typeName hr
  have hcollection : (collectionModule r).IsInline :=
    isInline_append.2 ⟨isInline_append.2 ⟨by decide, hr.pluralName⟩, by decide⟩
  have hinline : ∀ line ∈ columnsHead r helpers, line.IsInline := by
    simp only [columnsHead, List.forall_mem_cons]
    refine ⟨by decide, by decide, ?_, ?_, by decide, ?_, List.forall_mem_nil _⟩
    · simp only [importLine, spaced, isInline_append]
      exact ⟨⟨⟨⟨by decide, ⟨by decide, hnames.2⟩, by decide⟩, by decide⟩, by decide⟩, by decide⟩
    · simp only [importTypeLine, spaced, isInline_append]
      exact ⟨⟨⟨⟨by decide, ⟨by decide, htype⟩, by decide⟩, by decide⟩, hcollection⟩, by decide⟩
    · simp only [isInline_append]
      exact ⟨⟨⟨⟨by decide, hr.name⟩, by decide⟩, htype⟩, by decide⟩
  rw [cellCalls, lines_unlines hinline]
  rfl

/-- The columns file of a resource imports the helpers that its columns call, each of them once, and
besides them the sortable header. -/
def ImportsCalls (r : Resource) : Prop :=
  ∃ helpers rest body,
    columns r = unlines (columnsHead r helpers) ++ body ∧
    imports (columns r) = ⟨["ColumnDef"], "@tanstack/react-table"⟩ ::
      ⟨"SortableHeader" :: helpers, "@/components/tables/_column-helpers"⟩ :: rest ∧
    (Text.ofString "SortableHeader" :: helpers).Nodup ∧
    (∀ helper, helper ∈ helpers ↔ helper ∈ cellCalls body) ∧
    (r.HasInlineNames → cellCalls (columns r) = cellCalls body)

theorem columns_importCalls (r : Resource) : ImportsCalls r := by
  have hcolumns : columns r = unlines (columnsHead r (cellHelpers (columnFields r)) ++
      ((columnFields r).flatMap column ++ [Text.ofString "]"])) := by
    simp [columns, columnsHead]
  obtain ⟨rest, hrest⟩ := imports_columnsHead r _ (isName_cellHelpers (columnFields r))
    ((columnFields r).flatMap column ++ [Text.ofString "]"])
  refine ⟨_, rest, _, hcolumns.trans (unlines_append _ _), hcolumns ▸ hrest,
    nodup_helperImports _, fun helper => ?_, fun hr => ?_⟩
  · rw [cellCalls_columns, mem_cellHelpers]
  · rw [hcolumns, unlines_append, cellCalls_append (isClosed_unlines _),
      cellCalls_columnsHead hr (isName_cellHelpers _), List.nil_append]

end Artifact

end Scaffold
