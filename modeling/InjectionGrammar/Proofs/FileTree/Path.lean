import InjectionGrammar.FileTree
import Mathlib.Data.List.Basic

/-! Splitting a path at its slashes and joining the pieces undo each other. -/
namespace InjectionGrammar
namespace Path
variable {path : String} {ps qs : List String} {p : String}

theorem splitSlashes_eq_splitOn (s : List Char) : splitSlashes s = s.splitOn '/' := by
  induction s with
  | nil => rfl
  | cons c s ih =>
    rw [splitSlashes, List.splitOn_cons_eq_if_modifyHead, ih]
    cases hs : s.splitOn '/' with
    | nil => exact absurd hs (List.splitOn_ne_nil _ _)
    | cons name names => simp

theorem not_slash_of_mem_splitSlashes {s name : List Char} (h : name ∈ splitSlashes s) :
    '/' ∉ name := by
  induction s generalizing name with
  | nil => simp_all [splitSlashes]
  | cons c s ih =>
    rw [splitSlashes] at h
    split at h
    · rcases List.mem_cons.1 h with rfl | h
      · simp
      · exact ih h
    · next hc =>
      split at h
      · simp_all [Ne.symm hc]
      · next heq =>
        rw [heq] at ih
        rcases List.mem_cons.1 h with rfl | h
        · simpa [Ne.symm hc] using ih List.mem_cons_self
        · exact ih (List.mem_cons_of_mem _ h)

theorem pieces_ne_nil (path : String) : pieces path ≠ [] := by
  simp [pieces, splitSlashes_eq_splitOn]

theorem not_slash_of_mem_pieces (h : p ∈ pieces path) : '/' ∉ p.toList := by
  obtain ⟨name, hname, rfl⟩ := List.mem_map.1 h
  simpa using not_slash_of_mem_splitSlashes hname

theorem ofPieces_pieces (path : String) : ofPieces (pieces path) = path := by
  apply String.toList_inj.1
  simp [ofPieces, pieces, splitSlashes_eq_splitOn, Function.comp_def]

theorem pieces_ofPieces (h : ∀ p ∈ ps, '/' ∉ p.toList) (hne : ps ≠ []) :
    pieces (ofPieces ps) = ps := by
  have hs : List.splitOn '/' (['/'].intercalate (ps.map String.toList)) = ps.map String.toList :=
    List.splitOn_intercalate _ (by simpa using h) (by simpa using hne)
  simp [pieces, ofPieces, splitSlashes_eq_splitOn, hs, Function.comp_def]

theorem ofPieces_append (hps : ps ≠ []) (hqs : qs ≠ []) :
    ofPieces (ps ++ qs) = ofPieces ps ++ "/" ++ ofPieces qs :=
  String.intercalate_append_of_ne_nil hps hqs

theorem ofPieces_concat_ne_empty {last : String} (h : last ≠ "") (ps : List String) :
    ofPieces (ps ++ [last]) ≠ "" := by
  by_cases hps : ps = []
  · simpa [hps, ofPieces] using h
  · rw [ofPieces_append hps (by simp)]
    intro he
    simpa using congrArg String.toList he

theorem namesOf_append (ps qs : List String) : namesOf (ps ++ qs) = namesOf ps ++ namesOf qs :=
  List.filter_append ..

/-- A path that does not end in a slash ends in a name. -/
theorem exists_last_piece (h : endsInSlash path = false) (hne : path ≠ "") :
    ∃ ps last, pieces path = ps ++ [last] ∧ last ≠ "" := by
  obtain ⟨ps, last, heq⟩ := (List.eq_nil_or_concat' _).resolve_left (pieces_ne_nil path)
  refine ⟨ps, last, heq, ?_⟩
  rintro rfl
  have hpath := ofPieces_pieces path
  rw [heq] at hpath
  by_cases hps : ps = []
  · exact hne (by simpa [hps, ofPieces] using hpath.symm)
  · rw [ofPieces_append hps (by simp)] at hpath
    simp [endsInSlash, ← hpath, ofPieces] at h

end Path
end InjectionGrammar
