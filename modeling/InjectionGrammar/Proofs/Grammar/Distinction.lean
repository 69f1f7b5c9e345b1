import InjectionGrammar.Proofs.Grammar.Reading
import InjectionGrammar.Proofs.Json.Distinction

/-! Grammars with the same text are the same. Unlike reading this has no limit of depth. -/
namespace InjectionGrammar
open Json

/-- What is read back from a value at any depth can be told by the value. -/
theorem injective_of_decodes {α : Type} {write : α → Json} {read : Nat → Reader α}
    (h : ∀ n a, Decodes (read n) n (write a) a) : Function.Injective write := by
  intro a b hab
  have ha := (h _ a 0 _ [] (skipSpace_indented 0 (write a) [])).ok (Nat.le_refl _)
  have hb := (h _ b 0 _ [] (skipSpace_indented 0 (write b) [])).ok (Nat.le_refl _)
  rw [← hab, ha, Except.ok.injEq, Prod.mk.injEq] at hb
  exact hb.1

theorem Rule.toJson_injective : Function.Injective Rule.toJson :=
  injective_of_decodes decodes_readRule

namespace Grammar

theorem toJson_injective : Function.Injective Grammar.toJson := by
  intro g g' h
  simp only [toJson, Rule.listToJson_eq_map, Json.object.injEq, List.cons.injEq, Prod.mk.injEq,
    Json.array.injEq, Json.string.injEq, true_and, and_true] at h
  obtain ⟨hfileTypes, hselector, hpatterns, hscopeName, hrepository⟩ := h
  have hstring : Function.Injective Json.string := fun _ _ => Json.string.inj
  have hentry : Function.Injective fun e : String × Rule => (e.1, e.2.toJson) := by
    intro e e' he
    obtain ⟨hk, hr⟩ := Prod.mk.inj he
    exact Prod.ext hk (Rule.toJson_injective hr)
  obtain ⟨fileTypes, selector, patterns, scopeName, repository⟩ := g
  obtain rfl := hstring.list_map hfileTypes
  obtain rfl := Rule.toJson_injective.list_map hpatterns
  obtain rfl := OrderedMap.ext (hentry.list_map hrepository)
  obtain rfl : selector = g'.injectionSelector := hselector
  obtain rfl : scopeName = g'.scopeName := hscopeName
  rfl

/-- The text of a grammar leaves nothing out, however deep its rules nest. -/
theorem toText_injective : Function.Injective Grammar.toText :=
  toFile_injective.comp toJson_injective

end Grammar
end InjectionGrammar
