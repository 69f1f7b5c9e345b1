import InjectionGrammar.Proofs.FileTree.Path
import InjectionGrammar.Proofs.FileTree.Walk
import InjectionGrammar.Proofs.OrderedMap

/-! Writing a file: what is written is found, and writing to a file that is found needs no new
directory. -/
namespace InjectionGrammar
namespace FileTree
variable {t t' : FileTree} {p q : Place} {path : String} {names ps rest : List String}
  {c c' : Content}

theorem namesFor_eq_ok : namesFor path = .ok names ↔
    '\x00' ∉ path.toList ∧ path ≠ "" ∧ path.utf8ByteSize ≤ longestPath ∧
      names = Path.names path := by
  unfold namesFor
  split
  · next h =>
    simp only [reduceCtorEq, false_iff]
    rintro ⟨hnul, -⟩
    exact hnul (by simpa using h)
  split
  · next h =>
    simp only [reduceCtorEq, false_iff]
    rintro ⟨-, hne, -⟩
    exact hne (by simpa using h)
  split
  · next h =>
    simp only [reduceCtorEq, false_iff]
    rintro ⟨-, -, hlen, -⟩
    exact Nat.not_lt.2 hlen h
  · next hnul hne hlen =>
    simp only [Except.ok.injEq]
    constructor
    · rintro rfl
      exact ⟨by simpa using hnul, by simpa using hne, Nat.not_lt.1 hlen, rfl⟩
    · rintro ⟨-, -, -, rfl⟩
      rfl

theorem locate_eq_ok : t.locate path = .ok p ↔
    namesFor path = .ok (Path.names path) ∧ t.walk (startOf path) (Path.names path) = .ok p := by
  unfold locate
  cases h : namesFor path with
  | error f => simp [bind, Except.bind]
  | ok names =>
    obtain ⟨-, -, -, rfl⟩ := namesFor_eq_ok.1 h
    simp [bind, Except.bind]

theorem find_eq_file : t.find path = .ok (.file c) ↔
    ∃ p, t.locate path = .ok p ∧ t.entry? p = some (.file c) ∧ Path.endsInSlash path = false := by
  unfold find
  cases hp : t.locate path with
  | error f => simp [bind, Except.bind]
  | ok p =>
    rcases he : t.entry? p with _ | c' | _
    · simp [bind, Except.bind, he]
    · cases hs : Path.endsInSlash path <;> simp [bind, Except.bind, he]
    · simp [bind, Except.bind, he]

theorem isDirectory_eq_false : t.isDirectory p = false ↔ t.entry? p ≠ some .directory := by
  simp [isDirectory]

theorem entry?_startOf (t : FileTree) (path : String) :
    t.entry? (startOf path) = some .directory := by
  unfold startOf
  split
  · exact entry?_root t
  · exact entry?_workplace t

theorem not_endsInDots {front : List String} {last : String} (h1 : last ≠ ".") (h2 : last ≠ "..") :
    endsInDots (front ++ [last]) = false := by
  simp [endsInDots, h1, h2]

/-- A write succeeds where its path leads to a place that is no directory. -/
theorem write_eq_ok : t.write path c = .ok t' ↔
    ∃ p, t.locate path = .ok p ∧ t.entry? p ≠ some .directory ∧
      Path.endsInSlash path = false ∧ t' = t.put p (.file c) := by
  constructor
  · intro h
    unfold write at h
    cases hn : namesFor path with
    | error f => simp [hn, bind, Except.bind] at h
    | ok names =>
      obtain ⟨-, -, -, rfl⟩ := namesFor_eq_ok.1 hn
      simp only [hn, bind, Except.bind] at h
      split at h
      · cases h
      · split at h
        · cases h
        · next hs =>
          split at h
          · cases h
          · next p hp =>
            cases hd : t.isDirectory p with
            | true => simp [hd] at h
            | false =>
              simp only [hd, Bool.false_eq_true, if_false, Except.ok.injEq] at h
              refine ⟨p, locate_eq_ok.2 ⟨hn, hp⟩, isDirectory_eq_false.1 hd, ?_, h.symm⟩
              simp_all
  · rintro ⟨p, hp, hd, hs, rfl⟩
    obtain ⟨hn, hw⟩ := locate_eq_ok.1 hp
    obtain ⟨front, last, r, hnames, h1, h2, hfront, hr⟩ :=
      exists_last_name (grounded_startOf t path) (entry?_startOf t path) hw hd
    have hdot : t.walk (startOf path) (front ++ ["."]) = .ok r :=
      walk_append_eq_ok.2 ⟨r, hfront, walk_singleton.trans (enter_eq_ok.2 ⟨hr, .inl ⟨rfl, rfl⟩⟩)⟩
    unfold write
    simp only [hn, bind, Except.bind]
    simp only [hnames, List.dropLast_concat, hdot, hs, not_endsInDots h1 h2]
    rw [← hnames, hw]
    simp [isDirectory_eq_false.2 hd]

/-- What is written is found. -/
theorem find_of_write (h : t.write path c = .ok t') : t'.find path = .ok (.file c) := by
  obtain ⟨p, hp, hd, hs, rfl⟩ := write_eq_ok.1 h
  obtain ⟨hn, hw⟩ := locate_eq_ok.1 hp
  exact find_eq_file.2 ⟨p, locate_eq_ok.2 ⟨hn, (keeps_put hd).walk hw⟩, entry?_put_self hd, hs⟩

/-- A file that is found can be written, and its own content leaves the tree as it is. -/
theorem write_of_find (h : t.find path = .ok (.file c)) : t.write path c = .ok t := by
  obtain ⟨p, hp, he, hs⟩ := find_eq_file.1 h
  refine write_eq_ok.2 ⟨p, hp, by simp [he], hs, ?_⟩
  unfold put
  unfold entry? at he
  split at he
  · cases he
  · rw [OrderedMap.insert_of_get? he]

theorem leadsToDirectory_of_locate (hp : t.locate path = .ok p)
    (hd : t.entry? p = some .directory) : t.leadsToDirectory path = true := by
  simp [leadsToDirectory, find, hp, hd, bind, Except.bind]

theorem createUpwards_of_locate (hp : t.locate path = .ok p)
    (hd : t.entry? p = some .directory) (above : List String) :
    t.createUpwards (path :: above) = (t, .ok ()) := by
  obtain ⟨hn, hw⟩ := locate_eq_ok.1 hp
  have hc : t.createDirectory path = .error .alreadyExists := by
    simp [createDirectory, hn, hw, hd, bind, Except.bind]
  simp [createUpwards, hc, leadsToDirectory_of_locate hp hd]

theorem names_ofPieces (hpath : Path.pieces path = ps ++ rest) (hps : ps ≠ []) :
    Path.names (Path.ofPieces ps) = Path.namesOf ps := by
  rw [Path.names, Path.pieces_ofPieces _ hps]
  intro p hp
  have hmem : p ∈ Path.pieces path := by simp [hpath, hp]
  exact Path.not_slash_of_mem_pieces hmem

theorem eq_ofPieces_append (hpath : Path.pieces path = ps ++ rest) (hps : ps ≠ [])
    (hrest : rest ≠ []) : path = Path.ofPieces ps ++ "/" ++ Path.ofPieces rest := by
  rw [← Path.ofPieces_append hps hrest, ← hpath, Path.ofPieces_pieces]

theorem ne_nil_of_ofPieces (h : Path.ofPieces ps ≠ "") : ps ≠ [] := by
  rintro rfl
  exact h rfl

/-- A path begins where its initial parts begin. -/
theorem startOf_ofPieces (hpath : Path.pieces path = ps ++ rest) (hps : Path.ofPieces ps ≠ "")
    (hrest : rest ≠ []) : startOf (Path.ofPieces ps) = startOf path := by
  have hhead : path.toList.head? = (Path.ofPieces ps).toList.head? := by
    rw [eq_ofPieces_append hpath (ne_nil_of_ofPieces hps) hrest]
    simp only [String.toList_append, List.append_assoc]
    exact List.head?_append_of_ne_nil _ (by simpa using hps)
  simp [startOf, Path.isAbsolute, hhead]

theorem namesFor_ofPieces (h : namesFor path = .ok (Path.names path))
    (hpath : Path.pieces path = ps ++ rest) (hps : Path.ofPieces ps ≠ "") (hrest : rest ≠ []) :
    namesFor (Path.ofPieces ps) = .ok (Path.namesOf ps) ∧
      startOf (Path.ofPieces ps) = startOf path := by
  have hne : ps ≠ [] := ne_nil_of_ofPieces hps
  have heq := eq_ofPieces_append hpath hne hrest
  obtain ⟨hnul, -, hlen, -⟩ := namesFor_eq_ok.1 h
  refine ⟨namesFor_eq_ok.2 ⟨?_, hps, ?_, (names_ofPieces hpath hne).symm⟩,
    startOf_ofPieces hpath hps hrest⟩
  · intro hmem
    exact hnul (by rw [heq]; simp [hmem])
  · rw [heq, String.utf8ByteSize_append, String.utf8ByteSize_append] at hlen
    omega

/-- Where the pieces of a path lead to a directory, those above it need not be created. -/
theorem createUpwards_upwards (h : namesFor path = .ok (Path.names path))
    (hpath : Path.pieces path = ps.reverse ++ rest) (hrest : rest ≠ [])
    (hw : t.walk (startOf path) (Path.namesOf ps.reverse) = .ok q)
    (hd : t.entry? q = some .directory) : t.createUpwards (Path.upwards ps) = (t, .ok ()) := by
  induction ps generalizing rest q with
  | nil => rfl
  | cons piece above ih =>
    rw [List.reverse_cons, List.append_assoc] at hpath
    rw [List.reverse_cons, Path.namesOf_append] at hw
    obtain ⟨r, hr, hlast⟩ := walk_append_eq_ok.1 hw
    rw [Path.upwards]
    split
    · next hskip =>
      rcases hskip with rfl | ⟨rfl, -⟩
      · cases hlast
        exact ih hpath (by simp) hr hd
      · exact ih hpath (by simp) hr (isDirectory_of_enter (walk_singleton.symm.trans hlast))
    · next hskip =>
      have hne : Path.ofPieces (piece :: above).reverse ≠ "" := by
        rw [List.reverse_cons]
        exact Path.ofPieces_concat_ne_empty (fun hp => hskip (.inl hp)) _
      have hall : Path.pieces path = (piece :: above).reverse ++ rest := by
        rw [List.reverse_cons, hpath, List.append_assoc]
      obtain ⟨hn, hstart⟩ := namesFor_ofPieces h hall hne hrest
      obtain ⟨-, -, -, hnames⟩ := namesFor_eq_ok.1 hn
      apply createUpwards_of_locate (p := q) _ hd
      refine locate_eq_ok.2 ⟨hnames ▸ hn, ?_⟩
      rw [hstart, ← hnames, List.reverse_cons, Path.namesOf_append]
      exact hw

/-- The directories that a file needs are there if the file is. -/
theorem createParents_of_find (h : t.find path = .ok (.file c)) :
    t.createParents path = (t, .ok ()) := by
  obtain ⟨p, hp, he, hs⟩ := find_eq_file.1 h
  obtain ⟨hn, hw⟩ := locate_eq_ok.1 hp
  have hne : path ≠ "" := (namesFor_eq_ok.1 hn).2.1
  obtain ⟨ps, piece, hpieces, hpiece⟩ := Path.exists_last_piece hs hne
  have hnames : Path.names path = Path.namesOf ps ++ [piece] := by
    simp [Path.names, hpieces, Path.namesOf, hpiece]
  obtain ⟨front, last, r, hfl, h1, -, hr, hd⟩ :=
    exists_last_name (grounded_startOf t path) (entry?_startOf t path) hw (by simp [he])
  obtain ⟨rfl, hl⟩ := List.append_inj' (hnames.symm.trans hfl) rfl
  obtain rfl : piece = last := by simpa using hl
  have htail : (Path.ancestors path).tail = Path.upwards ps.reverse := by
    simp [Path.ancestors, hpieces, Path.upwards, hpiece, h1]
  rw [createParents, htail]
  exact createUpwards_upwards hn (by simpa using hpieces) (by simp) (by simpa using hr) hd

end FileTree
end InjectionGrammar
