import InjectionGrammar.Grammar
import InjectionGrammar.Proofs.OrderedMap
import Mathlib.Data.List.Forall2

/-! Rules and grammars in the making. A draft keeps every assignment, in the order in which they are
made; of those to one group, or under one key, the last one stays in the end. -/
namespace InjectionGrammar

/-- A value, or one inside it at any depth. -/
inductive Within {α : Type} (inner : α → List α) : α → α → Prop where
  | here {a : α} : Within inner a a
  | inside {a b c : α} (hb : b ∈ inner a) (h : Within inner c b) : Within inner c a

/-- Where a map takes what is inside along, it leads from all that is within a value to all that is
within the image. -/
theorem within_map {α β : Type} {inner : α → List α} {inner' : β → List β} {f : α → β}
    (hf : ∀ a, inner' (f a) = (inner a).map f) {a : α} {y : β} :
    Within inner' y (f a) ↔ ∃ x, Within inner x a ∧ y = f x := by
  constructor
  · intro h
    generalize hz : f a = z at h
    induction h generalizing a with
    | here => exact ⟨a, .here, hz.symm⟩
    | inside hb _ ih =>
      rw [← hz, hf] at hb
      obtain ⟨b, hinner, rfl⟩ := List.mem_map.1 hb
      obtain ⟨x, hx, rfl⟩ := ih rfl
      exact ⟨x, .inside hinner hx, rfl⟩
  · rintro ⟨x, hx, rfl⟩
    induction hx with
    | here => exact .here
    | inside hb _ ih =>
      refine .inside ?_ ih
      rw [hf]
      exact List.mem_map_of_mem hb

/-- A rule whose captures are listed as they are assigned. -/
structure Rule.Draft where
  target : Option String := none
  name : Option String := none
  contentName : Option String := none
  opening : Option String := none
  captures : List (UInt32 × String) := []
  closing : Option String := none
  patterns : List Draft := []

namespace Rule.Draft

mutual

/-- The rule that comes out of a draft. -/
def settle : Draft → Rule
  | ⟨target, name, contentName, opening, captures, closing, patterns⟩ =>
    ⟨target, name, contentName, opening, .ofList captures, closing, settleAll patterns⟩

def settleAll : List Draft → List Rule
  | [] => []
  | d :: ds => d.settle :: settleAll ds

end

theorem settleAll_eq (ds : List Draft) : settleAll ds = ds.map settle := by
  induction ds with
  | nil => rfl
  | cons d ds ih => rw [settleAll, ih, List.map_cons]

theorem settle_eq (d : Draft) : d.settle = ⟨d.target, d.name, d.contentName, d.opening,
    .ofList d.captures, d.closing, d.patterns.map settle⟩ := by
  cases d
  rw [settle, settleAll_eq]

theorem patterns_settle (d : Draft) : d.settle.patterns = d.patterns.map settle := by
  rw [settle_eq]

end Rule.Draft

/-- A rule comes out of a draft, and the rules inside it come out of those inside the draft; each
group holds what was assigned to it last. -/
def Rule.ComesFrom (r : Rule) (d : Draft) : Prop :=
  r = d.settle ∧ ∀ r', Within patterns r' r → ∃ d', Within Draft.patterns d' d ∧ r' = d'.settle ∧
    ∀ k s, r'.capture? k = some s ↔ OrderedMap.IsLast d'.captures k s

theorem Rule.comesFrom_settle (d : Draft) : d.settle.ComesFrom d := by
  refine ⟨rfl, ?_⟩
  intro r' h
  obtain ⟨d', hd', rfl⟩ := (within_map Draft.patterns_settle).1 h
  refine ⟨d', hd', rfl, ?_⟩
  intro k s
  rw [capture?, Draft.settle_eq]
  exact OrderedMap.get?_ofList_eq_some

/-- A grammar whose rules are drafts and whose repository is listed as it is filled. -/
structure Grammar.Draft where
  fileTypes : List String
  injectionSelector : String
  patterns : List Rule.Draft
  scopeName : String
  filed : List (String × Rule.Draft)

namespace Grammar.Draft

def settle (d : Draft) : Grammar where
  fileTypes := d.fileTypes
  injectionSelector := d.injectionSelector
  patterns := d.patterns.map Rule.Draft.settle
  scopeName := d.scopeName
  repository := .ofList (d.filed.map fun e => (e.1, e.2.settle))

end Grammar.Draft

/-- The rules of a grammar come out of the drafts that are listed, and of those that were filed last
under their keys. -/
def Grammar.ComesFrom (g : Grammar) (d : Draft) : Prop :=
  List.Forall₂ Rule.ComesFrom g.patterns d.patterns ∧
    (∀ key r, g.rule? key = some r → ∃ d', OrderedMap.IsLast d.filed key d' ∧ r.ComesFrom d') ∧
    ∀ key d', OrderedMap.IsLast d.filed key d' → ∃ r, g.rule? key = some r ∧ r.ComesFrom d'

theorem Grammar.comesFrom_settle (d : Draft) : d.settle.ComesFrom d := by
  have hfiled (key : String) (r : Rule) : d.settle.rule? key = some r ↔
      ∃ d', OrderedMap.IsLast d.filed key d' ∧ d'.settle = r :=
    OrderedMap.get?_ofList_eq_some.trans OrderedMap.isLast_map
  refine ⟨?_, ?_, ?_⟩
  · change List.Forall₂ _ (d.patterns.map Rule.Draft.settle) _
    rw [List.forall₂_map_left_iff, List.forall₂_same]
    intro d' _
    exact Rule.comesFrom_settle d'
  · intro key r hr
    obtain ⟨d', hlast, rfl⟩ := (hfiled key r).1 hr
    exact ⟨d', hlast, Rule.comesFrom_settle d'⟩
  · intro key d' hlast
    exact ⟨_, (hfiled key _).2 ⟨d', hlast, rfl⟩, Rule.comesFrom_settle d'⟩

/-- What of a rule is set by a call. -/
inductive Slot where
  | name
  | contentName
  | capture (group : UInt32)
  | patterns
  deriving DecidableEq, Repr

/-- A call on a rule; the rules that are put inside it come as they are. -/
inductive Change (ρ : Type) where
  | name (name : String)
  | contentName (name : String)
  | capture (group : UInt32) (scope : String)
  | patterns (patterns : List ρ)

namespace Change
variable {ρ ρ' : Type}

def slot : Change ρ → Slot
  | name _ => .name
  | contentName _ => .contentName
  | capture group _ => .capture group
  | patterns _ => .patterns

/-- The group and the scope of an assignment. -/
def assignment? : Change ρ → Option (UInt32 × String)
  | capture group scope => some (group, scope)
  | _ => none

def map (f : ρ → ρ') : Change ρ → Change ρ'
  | name s => name s
  | contentName s => contentName s
  | capture group scope => capture group scope
  | patterns rs => patterns (rs.map f)

end Change

namespace Rule
variable {r : Rule} {c c' : Change Rule}

def change (r : Rule) : Change Rule → Rule
  | .name s => r.withName s
  | .contentName s => r.withContentName s
  | .capture group scope => r.withCapture group scope
  | .patterns rs => r.withPatterns rs

/-- Calls that set different things can be made in either order. -/
theorem change_comm (h : c.slot ≠ c'.slot) : (r.change c).change c' = (r.change c').change c := by
  cases c with
  | capture k s =>
    cases c' with
    | capture k' s' =>
      have hk : k ≠ k' := fun hk => h (congrArg Slot.capture hk)
      unfold change withCapture
      dsimp only
      rw [OrderedMap.insert_comm hk]
    | _ => rfl
  | _ =>
    cases c' with
    | _ => first | rfl | exact absurd rfl h

theorem changes_swap (before after : List (Change Rule)) (h : c.slot ≠ c'.slot) :
    (before ++ c :: c' :: after).foldl change r = (before ++ c' :: c :: after).foldl change r := by
  rw [List.foldl_append, List.foldl_append]
  simp only [List.foldl_cons]
  rw [change_comm h]

namespace Draft

/-- The same call on a draft: an assignment comes behind those made before. -/
def change (d : Draft) : Change Draft → Draft
  | .name s => { d with name := some s }
  | .contentName s => { d with contentName := some s }
  | .capture group scope => { d with captures := d.captures ++ [(group, scope)] }
  | .patterns ds => { d with patterns := ds }

theorem settle_change (d : Draft) (c : Change Draft) :
    (d.change c).settle = d.settle.change (c.map settle) := by
  rw [settle_eq, settle_eq]
  cases c with
  | capture k s =>
    dsimp only [change]
    rw [OrderedMap.ofList_concat]
    rfl
  | _ => rfl

/-- Calls on a rule make what the same calls on its draft make. -/
theorem settle_changes (d : Draft) (cs : List (Change Draft)) :
    (cs.foldl change d).settle = (cs.map (·.map settle)).foldl Rule.change d.settle := by
  induction cs generalizing d with
  | nil => rfl
  | cons c cs ih => rw [List.foldl_cons, ih, settle_change, List.map_cons, List.foldl_cons]

/-- A draft lists the assignments that are made by calls. -/
theorem captures_changes (d : Draft) (cs : List (Change Draft)) :
    (cs.foldl change d).captures = d.captures ++ cs.filterMap (·.assignment?) := by
  induction cs generalizing d with
  | nil => exact (List.append_nil _).symm
  | cons c cs ih =>
    rw [List.foldl_cons, ih, List.filterMap_cons]
    cases c with
    | capture k s => exact List.append_assoc _ _ _
    | _ => rfl

end Draft
end Rule
end InjectionGrammar
