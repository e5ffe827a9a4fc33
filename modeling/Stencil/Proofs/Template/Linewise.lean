import Mathlib.Data.List.DropRight
import Stencil.Proofs.Template.Passes
import Stencil.Proofs.Template.Texts
import Stencil.Proofs.Text.Occurrence

/-!
# Filters line by line

## What filters do to the lines of a text

A text is a row of lines with line breaks between them.  Behind the first line break the
first pass of a filter removes the blanks that a line starts with; in front of the last
line break the second pass removes the blanks that a line ends with; and the third pass
removes the empty lines that have a line break on both sides.  The first line is never
trimmed on the left nor the last one on the right, because the text may go on there with
something else on the same line.
-/

namespace Stencil

namespace Text

def lines (s : Text) : List Text :=
  s.splitOn '\n'

def ofLines (lines : List Text) : Text :=
  ['\n'].intercalate lines

@[simp] theorem ofLines_singleton (line : Text) : ofLines [line] = line :=
  List.intercalate_singleton

theorem ofLines_cons {rest : List Text} (h : rest ≠ []) (line : Text) :
    ofLines (line :: rest) = line ++ '\n' :: ofLines rest := by
  rcases List.exists_cons_of_ne_nil h with ⟨next, others, rfl⟩
  rw [ofLines, List.intercalate_cons_cons, List.append_assoc]
  rfl

theorem ofLines_lines (s : Text) : ofLines (lines s) = s :=
  List.intercalate_splitOn '\n'

end Text

namespace Filter

/-- Removes the blanks that lines start with, but for the first line. -/
def trimIndents (lines : List Text) : List Text :=
  lines.take 1 ++ (lines.drop 1).map (List.dropWhile isBlank)

/-- Removes the blanks that lines end with, but for the last line. -/
def trimTrails (lines : List Text) : List Text :=
  lines.dropLast.map (List.rdropWhile isBlank) ++ lines.getLast?.toList

/-- Removes the empty lines, but for the last line. -/
def dropEmptyLines (lines : List Text) : List Text :=
  lines.dropLast.filter (fun line => !line.isEmpty) ++ lines.getLast?.toList

/-- Removes the empty lines between the first and the last line. -/
def closeGaps (lines : List Text) : List Text :=
  lines.take 1 ++ dropEmptyLines (lines.drop 1)

def onLines (filter : Filter) (lines : List Text) : List Text :=
  let lines := if filter.trimLeft then trimIndents lines else lines
  let lines := if filter.trimRight then trimTrails lines else lines
  if filter.collapse then closeGaps lines else lines

/-- What the filter makes of a text, line by line. -/
def linewise (filter : Filter) (s : Text) : Text :=
  Text.ofLines (filter.onLines (Text.lines s))

def Unbroken (lines : List Text) : Prop :=
  forall line, line ∈ lines -> '\n' ∉ line

variable {line s : Text} {lines rest : List Text}

theorem unbroken_lines (s : Text) : Unbroken (Text.lines s) :=
  fun _ hmem => Text.not_mem_of_mem_splitOn hmem

/-!
## The row of the remaining lines
-/

theorem trimTrails_cons (h : rest ≠ []) (line : Text) :
    trimTrails (line :: rest) = line.rdropWhile isBlank :: trimTrails rest := by
  rcases List.exists_cons_of_ne_nil h with ⟨next, others, rfl⟩
  rfl

theorem trimTrails_ne_nil (h : lines ≠ []) : trimTrails lines ≠ [] := by
  simp [trimTrails, h]

theorem dropEmptyLines_cons (h : rest ≠ []) (line : Text) :
    dropEmptyLines (line :: rest) =
      if line = [] then dropEmptyLines rest else line :: dropEmptyLines rest := by
  rcases List.exists_cons_of_ne_nil h with ⟨next, others, rfl⟩
  cases line with
  | nil => rfl
  | cons c line => rfl

theorem dropEmptyLines_ne_nil (h : lines ≠ []) : dropEmptyLines lines ≠ [] := by
  simp [dropEmptyLines, h]

theorem Unbroken.trimIndents (h : Unbroken lines) : Unbroken (trimIndents lines) := by
  intro line hmem
  rcases List.mem_append.mp hmem with hfirst | hlater
  · exact h line (List.mem_of_mem_take hfirst)
  · rcases List.mem_map.mp hlater with ⟨whole, hwhole, rfl⟩
    intro hbreak
    exact h whole (List.mem_of_mem_drop hwhole) ((List.dropWhile_suffix isBlank).mem hbreak)

theorem Unbroken.trimTrails (h : Unbroken lines) : Unbroken (trimTrails lines) := by
  intro line hmem
  rcases List.mem_append.mp hmem with hearlier | hlast
  · rcases List.mem_map.mp hearlier with ⟨whole, hwhole, rfl⟩
    intro hbreak
    exact h whole (List.mem_of_mem_dropLast hwhole)
      ((List.rdropWhile_prefix isBlank whole).mem hbreak)
  · exact h line (List.mem_of_mem_getLast? (Option.mem_toList.mp hlast))

theorem Unbroken.dropEmptyLines (h : Unbroken lines) : Unbroken (dropEmptyLines lines) := by
  intro line hmem
  rcases List.mem_append.mp hmem with hearlier | hlast
  · exact h line (List.mem_of_mem_dropLast (List.mem_of_mem_filter hearlier))
  · exact h line (List.mem_of_mem_getLast? (Option.mem_toList.mp hlast))

theorem Unbroken.closeGaps (h : Unbroken lines) : Unbroken (closeGaps lines) := by
  have hrest : Unbroken (lines.drop 1) := fun line hmem => h line (List.mem_of_mem_drop hmem)
  intro line hmem
  rcases List.mem_append.mp hmem with hfirst | hlater
  · exact h line (List.mem_of_mem_take hfirst)
  · exact hrest.dropEmptyLines line hlater

theorem Unbroken.ite {b : Bool} {others : List Text} (hothers : Unbroken others)
    (h : Unbroken lines) : Unbroken (if b then others else lines) := by
  split
  · exact hothers
  · exact h

/-!
## One line at a time
-/

theorem dropIndents_append_break (afterBreak : Bool) (before s : Text) :
    dropIndents afterBreak (before ++ '\n' :: s) =
      dropIndents afterBreak before ++ '\n' :: dropIndents true s := by
  induction before generalizing afterBreak with
  | nil => cases afterBreak <;> rfl
  | cons c before ih =>
      rw [List.cons_append, dropIndents, dropIndents]
      split
      · exact ih true
      · rw [ih, List.cons_append]

theorem dropIndents_false_line (h : '\n' ∉ line) : dropIndents false line = line := by
  induction line with
  | nil => rfl
  | cons c line ih =>
      rw [List.mem_cons, not_or] at h
      rw [dropIndents_of_ne (Ne.symm h.1), ih h.2]

theorem dropIndents_true_line (h : '\n' ∉ line) :
    dropIndents true line = line.dropWhile isBlank := by
  rw [dropIndents_true]
  exact dropIndents_false_line fun hmem => h ((List.dropWhile_suffix isBlank).mem hmem)

theorem dropIndents_true_ofLines (h : Unbroken lines) :
    dropIndents true (Text.ofLines lines) =
      Text.ofLines (lines.map (List.dropWhile isBlank)) := by
  induction lines with
  | nil => rfl
  | cons line rest ih =>
      rcases List.forall_mem_cons.mp h with ⟨hline, hrest⟩
      by_cases hnil : rest = []
      · subst hnil
        simpa using dropIndents_true_line hline
      · rw [Text.ofLines_cons hnil, dropIndents_append_break, dropIndents_true_line hline,
          ih hrest, List.map_cons, Text.ofLines_cons (by simpa using hnil)]

theorem dropIndents_ofLines (h : Unbroken lines) :
    dropIndents false (Text.ofLines lines) = Text.ofLines (trimIndents lines) := by
  cases lines with
  | nil => rfl
  | cons line rest =>
      rcases List.forall_mem_cons.mp h with ⟨hline, hrest⟩
      by_cases hnil : rest = []
      · subst hnil
        simpa [trimIndents] using dropIndents_false_line hline
      · have hmap : rest.map (List.dropWhile isBlank) ≠ [] := by simpa using hnil
        rw [Text.ofLines_cons hnil, dropIndents_append_break, dropIndents_false_line hline,
          dropIndents_true_ofLines hrest]
        exact (Text.ofLines_cons hmap line).symm

theorem dropTrails_line_append (h : '\n' ∉ line) (hs : (dropTrails s).head? ≠ some '\n') :
    dropTrails (line ++ s) = line ++ dropTrails s := by
  induction line with
  | nil => rfl
  | cons c line ih =>
      rw [List.mem_cons, not_or] at h
      have hhead : (line ++ dropTrails s).head? ≠ some '\n' := by
        cases line with
        | nil => exact hs
        | cons d line =>
            intro heq
            exact h.2 (Option.some.inj heq ▸ List.mem_cons_self)
      rw [List.cons_append, dropTrails]
      simp only [ih h.2, hhead, decide_false, Bool.and_false]
      rfl

theorem dropTrails_line (h : '\n' ∉ line) : dropTrails line = line := by
  have hline := dropTrails_line_append (s := []) h (by simp [dropTrails])
  simpa [dropTrails] using hline

theorem dropTrails_append_congr {t : Text} (h : dropTrails s = dropTrails t) (before : Text) :
    dropTrails (before ++ s) = dropTrails (before ++ t) := by
  induction before with
  | nil => exact h
  | cons c before ih => simp only [List.cons_append, dropTrails, ih]

theorem dropTrails_line_break (h : '\n' ∉ line) (s : Text) :
    dropTrails (line ++ '\n' :: s) = line.rdropWhile isBlank ++ '\n' :: dropTrails s := by
  induction line using List.reverseRecOn with
  | nil => rfl
  | append_singleton line c ih =>
      rw [List.mem_append, List.mem_singleton, not_or] at h
      rw [List.rdropWhile_concat, List.append_assoc]
      split
      case isTrue hblank =>
        have hdrop : dropTrails ([c] ++ '\n' :: s) = dropTrails ('\n' :: s) :=
          dropTrails_of_allBlank (List.forall_mem_singleton.mpr hblank) s
        rw [dropTrails_append_congr hdrop]
        exact ih h.1
      case isFalse hkept =>
        have hkeep : dropTrails ([c] ++ '\n' :: s) = c :: '\n' :: dropTrails s :=
          dropTrails_of_not_blank hkept ('\n' :: s)
        have hhead : (dropTrails ([c] ++ '\n' :: s)).head? ≠ some '\n' := by
          rw [hkeep]
          exact fun heq => h.2 (Option.some.inj heq).symm
        rw [dropTrails_line_append h.1 hhead, hkeep, List.append_assoc]
        rfl

theorem dropTrails_ofLines (h : Unbroken lines) :
    dropTrails (Text.ofLines lines) = Text.ofLines (trimTrails lines) := by
  induction lines with
  | nil => rfl
  | cons line rest ih =>
      rcases List.forall_mem_cons.mp h with ⟨hline, hrest⟩
      by_cases hnil : rest = []
      · subst hnil
        simpa [trimTrails] using dropTrails_line hline
      · rw [Text.ofLines_cons hnil, dropTrails_line_break hline, ih hrest,
          trimTrails_cons hnil, Text.ofLines_cons (trimTrails_ne_nil hnil)]

theorem dropBreaks_line_append (h : '\n' ∉ line) (s : Text) :
    dropBreaks (line ++ s) = line ++ dropBreaks s := by
  induction line with
  | nil => rfl
  | cons c line ih =>
      rw [List.mem_cons, not_or] at h
      rw [List.cons_append, dropBreaks_cons fun hboth => h.1 hboth.1.symm, ih h.2]
      rfl

theorem dropBreaks_line (h : '\n' ∉ line) : dropBreaks line = line := by
  have hline := dropBreaks_line_append h []
  simpa [dropBreaks] using hline

theorem head?_line_append_ne (h : '\n' ∉ line) (hne : line ≠ []) (s : Text) :
    (line ++ s).head? ≠ some '\n' := by
  cases line with
  | nil => exact absurd rfl hne
  | cons c line =>
      intro heq
      exact h (Option.some.inj heq ▸ List.mem_cons_self)

theorem dropBreaks_break_ofLines (h : Unbroken lines) (hlines : lines ≠ []) :
    dropBreaks ('\n' :: Text.ofLines lines) =
      '\n' :: Text.ofLines (dropEmptyLines lines) := by
  induction lines with
  | nil => exact absurd rfl hlines
  | cons line rest ih =>
      rcases List.forall_mem_cons.mp h with ⟨hline, hrest⟩
      by_cases hnil : rest = []
      · subst hnil
        have hhead : ¬ ('\n' = '\n' ∧ line.head? = some '\n') := by
          intro hboth
          exact hline (List.mem_of_mem_head? hboth.2)
        rw [Text.ofLines_singleton, dropBreaks_cons hhead, dropBreaks_line hline]
        simp [dropEmptyLines]
      · rw [Text.ofLines_cons hnil, dropEmptyLines_cons hnil]
        by_cases hempty : line = []
        · subst hempty
          rw [List.nil_append, dropBreaks_break_break, ih hrest hnil]
          rfl
        · have hhead := head?_line_append_ne hline hempty ('\n' :: Text.ofLines rest)
          rw [dropBreaks_cons fun hboth => hhead hboth.2, dropBreaks_line_append hline,
            ih hrest hnil, if_neg hempty, Text.ofLines_cons (dropEmptyLines_ne_nil hnil)]

theorem dropBreaks_ofLines (h : Unbroken lines) :
    dropBreaks (Text.ofLines lines) = Text.ofLines (closeGaps lines) := by
  cases lines with
  | nil => rfl
  | cons line rest =>
      rcases List.forall_mem_cons.mp h with ⟨hline, hrest⟩
      by_cases hnil : rest = []
      · subst hnil
        simpa [closeGaps, dropEmptyLines] using dropBreaks_line hline
      · rw [Text.ofLines_cons hnil, dropBreaks_line_append hline,
          dropBreaks_break_ofLines hrest hnil]
        exact (Text.ofLines_cons (dropEmptyLines_ne_nil hnil) line).symm

/-!
## All lines
-/

theorem ite_ofLines {b : Bool} {pass : Text -> Text} {others : List Text}
    (h : pass (Text.ofLines lines) = Text.ofLines others) :
    (if b then pass (Text.ofLines lines) else Text.ofLines lines) =
      Text.ofLines (if b then others else lines) := by
  split
  · exact h
  · rfl

theorem onText_ofLines (filter : Filter) (h : Unbroken lines) :
    filter.onText (Text.ofLines lines) = Text.ofLines (filter.onLines lines) := by
  have hleft := h.trimIndents.ite (b := filter.trimLeft) h
  have hright := hleft.trimTrails.ite (b := filter.trimRight) hleft
  unfold onText onLines
  dsimp only
  rw [ite_ofLines (dropIndents_ofLines h), ite_ofLines (dropTrails_ofLines hleft),
    ite_ofLines (dropBreaks_ofLines hright)]

theorem Unbroken.onLines (filter : Filter) (h : Unbroken lines) :
    Unbroken (filter.onLines lines) := by
  have hleft := h.trimIndents.ite (b := filter.trimLeft) h
  have hright := hleft.trimTrails.ite (b := filter.trimRight) hleft
  exact hright.closeGaps.ite hright

theorem onText_eq_linewise (filter : Filter) (s : Text) :
    filter.onText s = filter.linewise s := by
  have hlines := filter.onText_ofLines (unbroken_lines s)
  rwa [Text.ofLines_lines] at hlines

/-- A filter puts in place of each literal text what it makes of its lines, and changes
nothing else in a tree.  This is what its passes lead to, each of which puts a line break
in place of the leftmost and longest matches of its pattern. -/
theorem onNodes_eq_linewise (filter : Filter) :
    (forall nodes : List Node,
      filter.onNodes nodes = Node.mapTextsAll filter.linewise nodes) ∧
    forall s t : Text, filter.Rewrites s t ↔ t = filter.linewise s := by
  have hlinewise : filter.onText = filter.linewise := funext filter.onText_eq_linewise
  rw [← hlinewise]
  exact ⟨filter.onNodes_eq_mapTextsAll, fun _ _ => rewrites_iff⟩

/-- Lines of blanks are empty lines for the last pass. -/
example : linewise ⟨true, true, true⟩ "a \n \t\n\n b ".toList = "a\nb ".toList := by
  decide

end Filter

end Stencil
