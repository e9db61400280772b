import Mathlib.Data.List.Basic

/-!
# Lines of a text

A text is cut into lines by a separator (`List.splitOn`). A text is its last line, or a line, a
separator and a text (`induction_on_lines`), and `prefixed` puts something in front of every line:
in front of the lines of two texts, if a separator stands between them (`prefixed_append`).
-/

namespace Verif

namespace Lines

variable {α : Type*} [DecidableEq α] {sep : α} {pre line text before after : List α}

/-- Every text is its last line, or has a first one. -/
theorem induction_on_lines {motive : List α → Prop} (sep : α)
    (last : ∀ line, sep ∉ line → motive line)
    (first : ∀ line text, sep ∉ line → motive text → motive (line ++ sep :: text))
    (text : List α) : motive text := by
  induction hlength : text.length using Nat.strongRecOn generalizing text with
  | _ n ih =>
    by_cases hsep : sep ∈ text
    · obtain ⟨line, rest, rfl, hline⟩ := List.eq_append_cons_of_mem hsep
      rw [List.length_append, List.length_cons] at hlength
      exact first line rest hline (ih rest.length (by omega) rest rfl)
    · exact last text hsep

/-- The text with `pre` in front of each of its lines. -/
def prefixed (sep : α) (pre text : List α) : List α :=
  [sep].intercalate ((text.splitOn sep).map (pre ++ ·))

theorem prefixed_line (pre : List α) (h : sep ∉ line) : prefixed sep pre line = pre ++ line := by
  rw [prefixed, List.splitOn_eq_singleton h]
  exact List.intercalate_singleton

theorem prefixed_cons (pre text : List α) (h : sep ∉ line) :
    prefixed sep pre (line ++ sep :: text) = pre ++ line ++ sep :: prefixed sep pre text := by
  have hlines : (text.splitOn sep).map (pre ++ ·) ≠ [] :=
    mt List.map_eq_nil_iff.mp (List.splitOn_ne_nil sep text)
  rw [prefixed, List.splitOn_append_cons_self_of_not_mem h, List.map_cons,
    List.intercalate_cons_of_ne_nil hlines, List.append_assoc]
  rfl

theorem prefixed_append (pre before after : List α) :
    prefixed sep pre (before ++ sep :: after) =
      prefixed sep pre before ++ sep :: prefixed sep pre after := by
  induction before using induction_on_lines sep with
  | last line hline => rw [prefixed_cons pre after hline, prefixed_line pre hline]
  | first line text hline ih =>
    rw [List.append_assoc, List.cons_append, prefixed_cons pre _ hline, ih,
      prefixed_cons pre text hline]
    simp only [List.append_assoc, List.cons_append]

/-- There is one line more than there are separators. -/
theorem length_prefixed (sep : α) (pre text : List α) :
    (prefixed sep pre text).length = text.length + (text.count sep + 1) * pre.length := by
  induction text using induction_on_lines sep with
  | last line hline =>
    rw [prefixed_line pre hline, List.length_append, List.count_eq_zero_of_not_mem hline,
      Nat.zero_add, Nat.one_mul, Nat.add_comm]
  | first line text hline ih =>
    have hcount : (line ++ sep :: text).count sep = text.count sep + 1 := by
      rw [List.count_append, List.count_eq_zero_of_not_mem hline, List.count_cons_self,
        Nat.zero_add]
    rw [prefixed_cons pre text hline, hcount, Nat.succ_mul]
    simp only [List.length_append, List.length_cons, ih]
    omega

end Lines

end Verif
