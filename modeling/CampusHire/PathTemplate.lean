import Mathlib.Data.List.Basic

/-!
# Route templates

A template of a web framework, such as `/files/{folder}/{filename}`: fixed segments and
parameters between slashes, where a parameter is one segment that is not empty.  A path
matches a template only if it has as many segments, and a path that was put together from
a template and arguments is taken apart into these arguments.
-/

namespace PathTemplate

inductive Part where
  | fixed (text : List Char)
  | param

def segments (path : List Char) : List (List Char) := path.splitOn '/'

/-- The parameters, in order. -/
def matchParts : List Part → List (List Char) → Option (List (List Char))
  | [], [] => some []
  | .fixed text :: parts, segment :: rest =>
      if segment = text then matchParts parts rest else none
  | .param :: parts, segment :: rest =>
      if segment = [] then none else (matchParts parts rest).map (segment :: ·)
  | _, _ => none

def matchPath (template : List Part) (path : List Char) : Option (List (List Char)) :=
  matchParts template (segments path)

theorem segments_append (first second : List Char) :
    segments (first ++ '/' :: second) = segments first ++ segments second :=
  List.splitOn_append_cons_self first second

theorem segments_of_not_mem {segment : List Char} (h : '/' ∉ segment) :
    segments segment = [segment] :=
  List.splitOn_eq_singleton h

theorem slash_not_mem_of_mem_segments {segment path : List Char} (h : segment ∈ segments path) :
    '/' ∉ segment := by
  induction path generalizing segment with
  | nil =>
    rw [segments, List.splitOn_nil, List.mem_singleton] at h
    rw [h]
    exact List.not_mem_nil
  | cons c path ih =>
    rw [segments, List.splitOn_cons_eq_if_modifyHead] at h
    split at h
    · rcases List.mem_cons.mp h with rfl | h
      · exact List.not_mem_nil
      · exact ih h
    · rename_i hc
      obtain ⟨first, rest, hsplit⟩ := List.exists_cons_of_ne_nil (List.splitOn_ne_nil '/' path)
      rw [segments, hsplit] at ih
      rw [hsplit, List.modifyHead_cons] at h
      rcases List.mem_cons.mp h with rfl | h
      · intro hmem
        rcases List.mem_cons.mp hmem with heq | hmem
        · exact hc (beq_iff_eq.mpr heq.symm)
        · exact ih List.mem_cons_self hmem
      · exact ih (List.mem_cons_of_mem _ h)

/-- A text with a slash is more than one segment. -/
theorem one_lt_length_segments {text : List Char} (h : '/' ∈ text) :
    1 < (segments text).length := by
  obtain ⟨first, second, rfl⟩ := List.append_of_mem h
  have hfirst := List.length_pos_of_ne_nil (List.splitOn_ne_nil '/' first)
  have hsecond := List.length_pos_of_ne_nil (List.splitOn_ne_nil '/' second)
  rw [segments_append, List.length_append]
  simp only [segments]
  omega

/-- A match has a segment for each part. -/
theorem length_of_matchParts {parts : List Part} {rest params : List (List Char)}
    (h : matchParts parts rest = some params) : rest.length = parts.length := by
  induction parts generalizing rest params with
  | nil =>
    cases rest with
    | nil => rfl
    | cons segment rest => cases h
  | cons part parts ih =>
    cases rest with
    | nil => cases part <;> cases h
    | cons segment rest =>
      cases part with
      | fixed text =>
        simp only [matchParts] at h
        split at h
        · rw [List.length_cons, List.length_cons, ih h]
        · cases h
      | param =>
        simp only [matchParts] at h
        split at h
        · cases h
        · obtain ⟨others, hothers, -⟩ := Option.map_eq_some_iff.mp h
          rw [List.length_cons, List.length_cons, ih hothers]

/-- Fixed segments that are there are taken off. -/
theorem matchParts_fixed (texts : List (List Char)) (parts : List Part)
    (rest : List (List Char)) :
    matchParts (texts.map .fixed ++ parts) (texts ++ rest) = matchParts parts rest := by
  induction texts with
  | nil => rfl
  | cons text texts ih =>
    rw [List.map_cons, List.cons_append, List.cons_append, matchParts, if_pos rfl, ih]

/-- Parameters are read back. -/
theorem matchParts_params {args : List (List Char)} (h : ∀ arg ∈ args, arg ≠ []) :
    matchParts (args.map fun _ => .param) args = some args := by
  induction args with
  | nil => rfl
  | cons arg args ih =>
    rw [List.map_cons, matchParts, if_neg (h arg List.mem_cons_self),
      ih fun other hother => h other (List.mem_cons_of_mem _ hother), Option.map_some]

end PathTemplate
