import InjectionGrammar.Json.Decoding
import InjectionGrammar.Json.Encoding
import InjectionGrammar.Proofs.Json.Records
import InjectionGrammar.Proofs.OrderedMap

/-! Grammars and rules are read from the values that they are written as. -/
namespace InjectionGrammar
open Json
variable {n : Nat} {captures : Reader Captures} {patterns : Reader (List Rule)}

/-- A group is written as a numeral and is read back from it. -/
theorem decodesKey_readGroup (k : UInt32) : DecodesKey readGroup (numeral k.toNat) k := by
  intro rest
  have hk : k.toNat < UInt32.size := k.toNat_lt
  have hsize : UInt32.size ≤ UInt64.size := by decide
  obtain ⟨d, ds, heq, hd, -⟩ := numeral_eq_cons k.toNat
  have hread := readNumber_numeral (Nat.lt_of_lt_of_le hk hsize) rest
  have hdigit := hd d List.mem_cons_self
  have hminus : d ≠ '-' := by
    rintro rfl
    exact absurd hdigit (by decide)
  have hrange : ¬((k.toNat : Int) < 0 ∨ (UInt32.size : Int) ≤ k.toNat) := by
    omega
  have hback : (k.toNat : Int).toNat.toUInt32 = k := by
    rw [Int.toNat_natCast]
    exact UInt32.ofNat_toNat
  rw [flatMap_escapeChar_numeral]
  rw [heq, List.cons_append] at hread ⊢
  unfold readGroup
  simp only [hdigit, true_or, if_true, if_neg hminus, hread, Except.ok_bind, if_neg hrange, hback]

theorem fits_optionalMember {σ : Type} {l : Layout σ} {key : String}
    {set : Option String → σ → σ} {a b : σ} (o : Option String)
    (hf : l.fields.find? (·.name == key) = some ⟨key, readOptional.map set⟩)
    (hsome : ∀ s, o = some s → set o a = b) (hnone : o = none → a = b) :
    l.Fits n (optionalMember key o) a b := by
  cases o with
  | none =>
    rw [← hnone rfl]
    exact .nil a
  | some s =>
    rw [← hsome s rfl]
    exact .single hf (decodes_readOptional n s) a

theorem keys_optionalMember (key : String) (o : Option String) :
    ((optionalMember key o).map (·.1)).Sublist [key] := by
  cases o with
  | none => exact List.nil_sublist _
  | some s => exact List.Sublist.refl _

/-- The scope of a group, in a record of its own. -/
theorem decodes_captureLayout (n : Nat) (scope : String) :
    Decodes (captureLayout.read n) n (.object [("name", .string scope)]) scope := by
  cases n with
  | zero => exact Layout.decodes_read_zero _ _ _
  | succ n =>
    have hf : captureLayout.fields.find? (·.name == "name") =
        some ⟨"name", readString.map fun scope _ => scope⟩ := rfl
    have hfits : captureLayout.Fits n [("name", .string scope)] "" scope :=
      .single hf (decodes_readString n scope) ""
    exact Layout.decodes_read hfits (by simp) (by rfl)

theorem decodes_readCaptures (n : Nat) (cs : Captures) :
    Decodes (readCaptures n) n cs.toJson cs := by
  have hpairs : List.Forall₂
      (fun (m : String × Json) (e : UInt32 × String) => DecodesKey readGroup m.1 e.1 ∧
        Decodes (captureLayout.read (n - 1)) (n - 1) m.2 e.2)
      (cs.entries.map fun e => (numeral e.1.toNat, .object [("name", .string e.2)]))
      cs.entries := by
    rw [List.forall₂_map_left_iff, List.forall₂_same]
    intro e _
    exact ⟨decodesKey_readGroup e.1, decodes_captureLayout _ e.2⟩
  have hread := (decodes_readPairs fun _ => hpairs).map OrderedMap.ofList
  rwa [OrderedMap.ofList_entries] at hread

namespace Rule

/-- The members that a rule is written as. -/
def members (r : Rule) : List (String × Json) :=
  optionalMember "include" r.target ++ optionalMember "name" r.name ++
    optionalMember "contentName" r.contentName ++ optionalMember "begin" r.opening ++
    (if r.captures.isEmpty then [] else [("beginCaptures", r.captures.toJson)]) ++
    optionalMember "end" r.closing ++ patternsMember r.patterns

theorem listToJson_eq_map (rs : List Rule) : listToJson rs = rs.map toJson := by
  induction rs with
  | nil => rw [listToJson, List.map_nil]
  | cons r rs ih => rw [listToJson, ih, List.map_cons]

theorem toJson_eq (r : Rule) : r.toJson = .object r.members := by
  obtain ⟨_, _, _, _, _, _, _⟩ := r
  rw [toJson, members]

theorem nodup_keys_members (r : Rule) : (r.members.map (·.1)).Nodup := by
  have hcaptures : ((if r.captures.isEmpty then [] else
      [("beginCaptures", r.captures.toJson)]).map (·.1)).Sublist ["beginCaptures"] := by
    cases r.captures.isEmpty with
    | true => exact List.nil_sublist _
    | false => exact List.Sublist.refl _
  have hpatterns : ((patternsMember r.patterns).map (·.1)).Sublist ["patterns"] := by
    cases r.patterns with
    | nil => exact List.nil_sublist _
    | cons r rs =>
      rw [patternsMember]
      exact List.Sublist.refl _
  have hkeys : (r.members.map (·.1)).Sublist
      ["include", "name", "contentName", "begin", "beginCaptures", "end", "patterns"] := by
    simp only [members, List.map_append]
    exact ((((((keys_optionalMember _ r.target).append (keys_optionalMember _ r.name)).append
      (keys_optionalMember _ r.contentName)).append (keys_optionalMember _ r.opening)).append
      hcaptures).append (keys_optionalMember _ r.closing)).append hpatterns
  exact hkeys.nodup (by decide)

theorem fits_captures (hcaptures : ∀ cs : Captures, Decodes captures n cs.toJson cs)
    (cs : Captures) {r : Rule} (hr : r = { r with captures := .empty }) :
    (ruleLayout captures patterns).Fits n
      (if cs.isEmpty then [] else [("beginCaptures", cs.toJson)]) r
      { r with captures := cs } := by
  cases h : cs.isEmpty with
  | true =>
    have hcs : cs = .empty := OrderedMap.ext (List.isEmpty_iff.1 h)
    rw [if_pos rfl, hcs, ← hr]
    exact .nil r
  | false =>
    have hf : (ruleLayout captures patterns).fields.find? (·.name == "beginCaptures") =
        some ⟨"beginCaptures", captures.map fun cs r => { r with captures := cs }⟩ := rfl
    exact .single hf (hcaptures cs) r

theorem fits_patterns (hpatterns : ∀ rs, Decodes patterns n (.array (listToJson rs)) rs)
    (rs : List Rule) {r : Rule} (hr : r = { r with patterns := [] }) :
    (ruleLayout captures patterns).Fits n (patternsMember rs) r { r with patterns := rs } := by
  cases rs with
  | nil =>
    rw [← hr, patternsMember]
    exact .nil r
  | cons r' rs =>
    have hf : (ruleLayout captures patterns).fields.find? (·.name == "patterns") =
        some ⟨"patterns", patterns.map fun rs r => { r with patterns := rs }⟩ := rfl
    have hlist := hpatterns (r' :: rs)
    rw [listToJson] at hlist
    rw [patternsMember]
    exact .single hf hlist r

/-- The members of a rule make it up one field after the other. -/
theorem fits_members (hcaptures : ∀ cs : Captures, Decodes captures n cs.toJson cs)
    (hpatterns : ∀ rs, Decodes patterns n (.array (listToJson rs)) rs) (r : Rule) :
    (ruleLayout captures patterns).Fits n r.members {} r := by
  obtain ⟨target, name, contentName, opening, cs, closing, rs⟩ := r
  let l := ruleLayout captures patterns
  have htarget : l.Fits n (optionalMember "include" target) {} { target } :=
    fits_optionalMember target rfl (fun _ _ => rfl) (fun h => by rw [h])
  have hname : l.Fits n (optionalMember "name" name) { target } { target, name } :=
    fits_optionalMember name rfl (fun _ _ => rfl) (fun h => by rw [h])
  have hcontent : l.Fits n (optionalMember "contentName" contentName) { target, name }
      { target, name, contentName } :=
    fits_optionalMember contentName rfl (fun _ _ => rfl) (fun h => by rw [h])
  have hopening : l.Fits n (optionalMember "begin" opening) { target, name, contentName }
      { target, name, contentName, opening } :=
    fits_optionalMember opening rfl (fun _ _ => rfl) (fun h => by rw [h])
  have hcs : l.Fits n (if cs.isEmpty then [] else [("beginCaptures", cs.toJson)])
      { target, name, contentName, opening }
      { target, name, contentName, opening, captures := cs } :=
    fits_captures hcaptures cs rfl
  have hclosing : l.Fits n (optionalMember "end" closing)
      { target, name, contentName, opening, captures := cs }
      { target, name, contentName, opening, captures := cs, closing } :=
    fits_optionalMember closing rfl (fun _ _ => rfl) (fun h => by rw [h])
  have hrs : l.Fits n (patternsMember rs)
      { target, name, contentName, opening, captures := cs, closing }
      { target, name, contentName, opening, captures := cs, closing, patterns := rs } :=
    fits_patterns hpatterns rs rfl
  exact (((((htarget.append hname).append hcontent).append hopening).append hcs).append
    hclosing).append hrs

end Rule

/-- A rule is read from its members if its captures and its inner rules are. -/
theorem decodes_ruleLayout (hcaptures : ∀ cs : Captures, Decodes captures n cs.toJson cs)
    (hpatterns : ∀ rs, Decodes patterns n (.array (Rule.listToJson rs)) rs) (r : Rule) :
    Decodes ((ruleLayout captures patterns).read (n + 1)) (n + 1) r.toJson r := by
  rw [Rule.toJson_eq]
  exact Layout.decodes_read (r.fits_members hcaptures hpatterns) r.nodup_keys_members rfl

theorem decodes_rules {item : Reader Rule} (h : ∀ r, Decodes item (n - 1) r.toJson r)
    (rs : List Rule) : Decodes (readList n item) n (.array (Rule.listToJson rs)) rs := by
  rw [Rule.listToJson_eq_map]
  exact decodes_readList_map h rs

/-- A rule is read back where its containers nest no deeper than the levels that are left. -/
theorem decodes_readRule : ∀ (n : Nat) (r : Rule), Decodes (readRule n) n r.toJson r
  | 0, r => by
    rw [Rule.toJson_eq]
    exact Layout.decodes_read_zero _ _ _
  | 1, r => by
    apply decodes_ruleLayout (decodes_readCaptures 0)
    intro rs
    exact decodes_readList fun h => absurd h (Nat.lt_irrefl 0)
  | n + 2, r => by
    exact decodes_ruleLayout (decodes_readCaptures (n + 1)) (decodes_rules (decodes_readRule n)) r

theorem decodes_grammarLayout (g : Grammar) :
    Decodes (grammarLayout.read depthLimit) depthLimit g.toJson g := by
  have hfileTypes : Decodes (readList 126 readString) 126 (.array (g.fileTypes.map .string))
      g.fileTypes := decodes_readList_map (decodes_readString 125) g.fileTypes
  have hpatterns : Decodes (readList 126 (readRule 125)) 126 (.array (Rule.listToJson g.patterns))
      g.patterns := decodes_rules (decodes_readRule 125) g.patterns
  have hrepository : Decodes (readPairs 126 readQuoted (readRule 125)) 126
      (.object (g.repository.entries.map fun e => (e.1, e.2.toJson))) g.repository.entries := by
    apply decodes_readPairs
    intro _
    rw [List.forall₂_map_left_iff, List.forall₂_same]
    intro e _
    exact ⟨decodesKey_readQuoted e.1, decodes_readRule 125 e.2⟩
  have hfits : grammarLayout.Fits 126
      [("fileTypes", .array (g.fileTypes.map .string)),
        ("injectionSelector", .string g.injectionSelector),
        ("patterns", .array (Rule.listToJson g.patterns)),
        ("scopeName", .string g.scopeName),
        ("repository", .object (g.repository.entries.map fun e => (e.1, e.2.toJson)))]
      grammarLayout.initial { g with repository := .ofList g.repository.entries } := by
    refine .cons rfl (hfileTypes.map fun ts (g : Grammar) => { g with fileTypes := ts }) ?_
    refine .cons rfl ((decodes_readString 126 g.injectionSelector).map
      fun s (g : Grammar) => { g with injectionSelector := s }) ?_
    refine .cons rfl (hpatterns.map fun rs (g : Grammar) => { g with patterns := rs }) ?_
    refine .cons rfl ((decodes_readString 126 g.scopeName).map
      fun s (g : Grammar) => { g with scopeName := s }) ?_
    refine .cons rfl (hrepository.map
      fun es (g : Grammar) => { g with repository := .ofList es }) ?_
    exact .nil _
  rw [OrderedMap.ofList_entries] at hfits
  exact Layout.decodes_read hfits (by simp) (by rfl)

end InjectionGrammar
