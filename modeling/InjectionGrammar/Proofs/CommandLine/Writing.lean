import InjectionGrammar.Proofs.CommandLine.Reading
import Mathlib.Data.List.Count
import Mathlib.Data.List.Perm.Basic

/-! Arguments as the words of a command line, one for each setting or flag. Read back they give the
same arguments, in whatever order they come. -/
namespace InjectionGrammar
namespace CommandLine

/-- A word of a command line that stands on its own. -/
inductive Item where
  | value (s : Setting) (text : String)
  | flag (f : Flag)
  deriving DecidableEq, Repr

namespace Item

def word : Item → String
  | value s text => "--" ++ s.name ++ "=" ++ text
  | flag f => "--" ++ f.name

/-- The value of a setting, if it is this one. -/
def valueFor? (s : Setting) : Item → Option String
  | value s' text => if s' = s then some text else none
  | flag _ => none

end Item

namespace Arguments

/-- The values of a setting in their order. -/
def values (a : Arguments) : Setting → List String
  | .languages => a.languages.toList
  | .config => a.config.toList
  | .output => a.output.toList
  | .targetScope => a.targetScopes
  | .scopeName => a.scopeName.toList

def raises (a : Arguments) : Flag → Bool
  | .stdout => a.stdout
  | .check => a.check
  | .help | .version => false

/-- The items of arguments, by setting and flag. -/
def items (a : Arguments) : List Item :=
  settings.flatMap (fun s => (a.values s).map (.value s)) ++ (flags.filter a.raises).map .flag

/-- Whether every path that is given has a name. -/
def NamesPaths (a : Arguments) : Prop :=
  ∀ s v, s.allowsEmpty = false → v ∈ a.values s → v ≠ ""

variable {a b : Arguments} {s : Setting} {v : String}

theorem ext_values (hv : ∀ s, a.values s = b.values s) (hf : ∀ f, a.raises f = b.raises f) :
    a = b := by
  have toList_inj : ∀ {x y : Option String}, x.toList = y.toList → x = y := by
    rintro (_ | x) (_ | y) h <;> simp_all
  have h1 := toList_inj (hv .languages)
  have h2 := toList_inj (hv .config)
  have h3 := toList_inj (hv .output)
  have h4 := hv .targetScope
  have h5 := toList_inj (hv .scopeName)
  have h6 := hf .stdout
  have h7 := hf .check
  cases a
  cases b
  simp_all [values, raises]

/-- A setting other than the target scopes has one value at most. -/
theorem length_values_le (a : Arguments) (hs : s ≠ .targetScope) : (a.values s).length ≤ 1 := by
  cases s with
  | targetScope => exact absurd rfl hs
  | _ => exact Option.length_toList_le

theorem value?_eq_none (hs : s = .targetScope ∨ a.values s = []) : a.value? s = none := by
  rcases hs with rfl | hs
  · rfl
  · cases s <;> simp_all [values, value?]

theorem values_assign (s' : Setting) (hs : s = .targetScope ∨ a.values s = []) :
    (a.assign s v).values s' = a.values s' ++ if s = s' then [v] else [] := by
  rcases hs with rfl | hs
  · cases s' <;> simp [values, assign]
  · cases s <;> cases s' <;> simp_all [values, assign]

theorem raises_assign (f : Flag) : (a.assign s v).raises f = a.raises f := by
  cases s <;> cases f <;> rfl

theorem valuesFor_items (a : Arguments) (s : Setting) :
    a.items.filterMap (·.valueFor? s) = a.values s := by
  have hflags : ∀ fs : List Flag, (fs.map Item.flag).filterMap (·.valueFor? s) = [] := by
    intro fs
    simp [List.filterMap_map, Item.valueFor?]
  have hvalues : ∀ s' : Setting, ((a.values s').map (Item.value s')).filterMap (·.valueFor? s) =
      if s' = s then a.values s' else [] := by
    intro s'
    by_cases hs : s' = s <;> simp [List.filterMap_map, Item.valueFor?, hs]
  rw [items, List.filterMap_append, hflags, List.append_nil, List.filterMap_flatMap]
  simp only [hvalues]
  cases s <;> simp [settings]

theorem count_items (a : Arguments) (f : Flag) :
    a.items.count (.flag f) = if a.raises f then 1 else 0 := by
  have hvalues : (settings.flatMap fun s => (a.values s).map (Item.value s)).count (.flag f) = 0 :=
    List.count_eq_zero.2 (by simp)
  have hinj : Function.Injective Item.flag := fun _ _ h => Item.flag.inj h
  rw [items, List.count_append, hvalues, Nat.zero_add, List.count_map_of_injective _ _ hinj]
  cases hf : a.raises f with
  | false =>
    apply List.count_eq_zero.2
    simp [hf]
  | true =>
    rw [List.count_filter hf]
    cases f <;> rfl

/-- The items turn the arguments that have been read into others. -/
structure Completes (b : Arguments) (items : List Item) (a : Arguments) : Prop where
  values : ∀ s, a.values s = b.values s ++ items.filterMap (·.valueFor? s)
  flags : ∀ f, (if a.raises f then 1 else 0) = (if b.raises f then 1 else 0) + items.count (.flag f)

/-- Of most settings there is one value at most, so their order does not show. -/
theorem completes_of_perm {items : List Item} (hperm : items.Perm a.items)
    (hscopes : items.filterMap (·.valueFor? .targetScope) = a.targetScopes) :
    Completes {} items a := by
  constructor
  · intro s
    by_cases hs : s = .targetScope
    · subst hs
      exact hscopes.symm
    · have hvalues := hperm.filterMap (·.valueFor? s)
      rw [valuesFor_items] at hvalues
      have hempty : Arguments.values {} s = [] := by cases s <;> rfl
      have hle := a.length_values_le hs
      rw [hempty, List.nil_append]
      generalize a.values s = vs at hvalues hle
      match vs, hle with
      | [], _ => exact hvalues.eq_nil.symm
      | [v], _ => exact hvalues.eq_singleton.symm
  · intro f
    rw [hperm.count_eq, count_items]
    cases f <;> simp [raises]

namespace Completes
variable {f : Flag} {items : List Item}

theorem eq (h : Completes b [] a) : a = b := by
  refine ext_values (fun s => by simpa using h.values s) fun f => ?_
  have hf := h.flags f
  cases ha : a.raises f <;> cases hb : b.raises f <;> simp [ha, hb] at hf ⊢

theorem unset (h : Completes b (.value s v :: items) a) : s = .targetScope ∨ b.values s = [] := by
  refine or_iff_not_imp_left.2 fun hs => List.length_eq_zero_iff.1 ?_
  have hle := a.length_values_le hs
  rw [h.values s] at hle
  simp [Item.valueFor?] at hle
  omega

theorem mem (h : Completes b (.value s v :: items) a) : v ∈ a.values s := by
  rw [h.values s]
  simp [Item.valueFor?]

theorem assign (h : Completes b (.value s v :: items) a) : Completes (b.assign s v) items a := by
  constructor
  · intro s'
    rw [h.values s', values_assign s' h.unset]
    by_cases hs : s = s' <;> simp [Item.valueFor?, hs]
  · intro f
    simpa [raises_assign] using h.flags f

/-- A flag is raised that is wanted and has not been raised. -/
theorem raise (h : Completes b (.flag f :: items) a) :
    a.raises f = true ∧ b.raises f = false ∧ items.count (.flag f) = 0 := by
  have hf := h.flags f
  rw [List.count_cons_self] at hf
  cases ha : a.raises f <;> cases hb : b.raises f <;> simp [ha, hb] at hf ⊢
  omega

end Completes
end Arguments

namespace State
variable {st : State} {a : Arguments} {f : Flag} {items : List Item}

theorem takeWhile_name (s : Setting) (cs : List Char) :
    (s.name.toList ++ '=' :: cs).takeWhile (· ≠ '=') = s.name.toList := by
  cases s <;> rfl

theorem dropWhile_name (s : Setting) (cs : List Char) :
    (s.name.toList ++ '=' :: cs).dropWhile (· ≠ '=') = '=' :: cs := by
  cases s <;> rfl

theorem keyOfName?_name (s : Setting) : keyOfName? s.name = some (.setting s) := by
  cases s <;> rfl

theorem feed_value (st : State) (s : Setting) (text : String) :
    st.feed (Item.value s text).word = st.giveAttached s text := by
  have hword : (Item.value s text).word.toList =
      '-' :: '-' :: (s.name.toList ++ '=' :: text.toList) := by
    simp [Item.word, String.toList_append]
  simp only [feed, hword, takeWhile_name, dropWhile_name, String.ofList_toList, readLong,
    keyOfName?_name]

theorem feed_flag (st : State) (f : Flag) : st.feed (Item.flag f).word = st.raise f := by
  cases f <;> rfl

theorem word_ne_dashes (item : Item) : item.word ≠ "--" := by
  cases item with
  | value s text =>
    intro h
    have hlength := congrArg (fun w => w.toList.length) h
    simp [Item.word, String.toList_append] at hlength
  | flag f => cases f <;> decide

theorem giveAttached_of_completes {s : Setting} {v : String} (hp : st.pending = none)
    (hpaths : a.NamesPaths) (h : st.arguments.Completes (.value s v :: items) a) :
    st.giveAttached s v = .ok { st with arguments := st.arguments.assign s v } := by
  have hvalue := hpaths s v
  have hgive : st.arguments.give s v = .ok (st.arguments.assign s v) := by
    unfold Arguments.give
    rw [Arguments.value?_eq_none h.unset]
    by_cases hs : s.allowsEmpty = false
    · simp [hvalue hs h.mem]
    · simp [hs]
  simp only [giveAttached, settle_of_pending hp, Except.ok_bind, hgive]
  rfl

theorem raise_of_completes (hp : st.pending = none)
    (h : st.arguments.Completes (.flag f :: items) a) :
    ∃ st', st.raise f = .ok st' ∧ st'.pending = none ∧ st'.arguments.Completes items a := by
  obtain ⟨hwanted, hunset, hcount⟩ := h.raise
  have hflags : ∀ b : Arguments, (∀ s, b.values s = st.arguments.values s) →
      (∀ f', b.raises f' = (st.arguments.raises f' || f' == f)) → b.Completes items a := by
    intro b hb hf
    constructor
    · intro s
      rw [hb, h.values s]
      rfl
    · intro f'
      rw [h.flags f', hf]
      by_cases hf' : f' = f
      · subst hf'
        simp [hunset, hcount]
      · simp [hf', Ne.symm hf']
  cases f with
  | help => cases hwanted
  | version => cases hwanted
  | stdout =>
    have hout : st.arguments.stdout = false := hunset
    refine ⟨{ st with arguments := { st.arguments with stdout := true } }, ?_, hp, hflags _ ?_ ?_⟩
    · simp only [raise, settle_of_pending hp, Except.ok_bind, hout]
      rfl
    · intro s
      cases s <;> rfl
    · intro f'
      cases f' <;> simp [Arguments.raises]
  | check =>
    have hcheck : st.arguments.check = false := hunset
    refine ⟨{ st with
      arguments := { st.arguments with check := true }
      checkFirst := !st.arguments.stdout }, ?_, hp, hflags _ ?_ ?_⟩
    · simp only [raise, settle_of_pending hp, Except.ok_bind, hcheck]
      rfl
    · intro s
      cases s <;> rfl
    · intro f'
      cases f' <;> simp [Arguments.raises]

/-- The induction is on the items; what has been read and what is still to come make up the
arguments together. -/
theorem read_words (hp : st.pending = none) (hpaths : a.NamesPaths)
    (h : st.arguments.Completes items a) :
    ∃ st', st.read (items.map Item.word) = .ok st' ∧ st'.arguments = a := by
  induction items generalizing st with
  | nil => exact ⟨st, settle_of_pending hp, h.eq.symm⟩
  | cons item items ih =>
    rw [List.map_cons, read_cons (word_ne_dashes item)]
    cases item with
    | value s v =>
      rw [feed_value, giveAttached_of_completes hp hpaths h]
      exact ih hp h.assign
    | flag f =>
      obtain ⟨st', hraise, hp', h'⟩ := raise_of_completes hp h
      rw [feed_flag, hraise]
      exact ih hp' h'

end State

/-- Arguments that are written word by word are read as they were, in any order that keeps the
target scopes in theirs. With both flags they are refused for the conflict between these. -/
theorem written_words_are_read (a : Arguments) (items : List Item) (hpaths : a.NamesPaths)
    (hperm : items.Perm a.items)
    (hscopes : items.filterMap (·.valueFor? .targetScope) = a.targetScopes) :
    ((a.stdout && a.check) = false → parse (items.map Item.word) = .ok a) ∧
    ((a.stdout && a.check) = true →
      parse (items.map Item.word) = .error (.conflict .stdout .check) ∨
      parse (items.map Item.word) = .error (.conflict .check .stdout)) := by
  have hstart : State.start.arguments.Completes items a := Arguments.completes_of_perm hperm hscopes
  obtain ⟨st, hread, hst⟩ := State.read_words rfl hpaths hstart
  constructor
  · intro hflags
    exact parse_eq_ok.2 ⟨st, hread, hst, hflags⟩
  · intro hflags
    simp only [parse, hread, Except.ok_bind, hst, hflags, if_true]
    cases st.checkFirst
    · exact .inl rfl
    · exact .inr rfl

/-- Scopes with signs and dashes in them, one of them empty, among other settings, in an order of
their own; and the same with a flag too many. -/
theorem written_words_are_read_of_dashes :
    let a : Arguments := {
      config := some "-c", output := some "--", scopeName := some ""
      targetScopes := ["", "--check", "a=b"], stdout := true }
    let words := ["--target-scope=", "--stdout", "--output=--", "--target-scope=--check",
      "--scope-name=", "--target-scope=a=b", "--config=-c"]
    parse words = .ok a ∧ (parse ("--check" :: words) = .error (.conflict .stdout .check) ∨
      parse ("--check" :: words) = .error (.conflict .check .stdout)) := by
  intro a words
  let items : List Item := [.value .targetScope "", .flag .stdout, .value .output "--",
    .value .targetScope "--check", .value .scopeName "", .value .targetScope "a=b",
    .value .config "-c"]
  have hpaths : a.NamesPaths := by
    rintro (_ | _ | _ | _ | _) v hs hv <;> simp_all [a, Arguments.values, Setting.allowsEmpty]
  refine ⟨(written_words_are_read a items hpaths (by decide) rfl).1 rfl, ?_⟩
  exact (written_words_are_read { a with check := true } (.flag .check :: items) hpaths
    (by decide) rfl).2 rfl

end CommandLine
end InjectionGrammar
