import Provenance.Proofs.Atlas.Representation
import Provenance.Proofs.Mappings.Foreign

/-!
# Maps with foreign characters

A source map is not refused because a character of its mappings text is neither a letter nor a
separator. It is worth what the map is worth in which letters stand in for such characters. Only
where one of them ends a segment is the map sure to be refused.
-/

namespace Provenance.Atlas

open Provenance.Mappings

/-- A map with a foreign character in the middle of a number. -/
def spoiled : SourceMap := ⟨3, none, [], [], "g!A", none, none⟩

theorem isOk_ofSourceMap_spoiled : (ofSourceMap spoiled).isOk = true := by
  simp only [ofSourceMap, mergeSort_rawLe, mergeSort_originLe]
  rfl

/-- A map with foreign characters can be accepted. -/
theorem not_forall_foreign_refused :
    ¬ ∀ m : SourceMap, (∃ c ∈ m.mappings.toList, isForeign c = true) →
      ∃ e, ofSourceMap m = .error e := by
  intro hall
  obtain ⟨e, he⟩ := hall spoiled ⟨'!', by decide, by decide⟩
  have hok := isOk_ofSourceMap_spoiled
  rw [he] at hok
  cases hok

/-- A map is decoded like the one where letters stand in for the foreign characters of its text, so
that it has an atlas exactly if that one has. A map with a segment that ends in a foreign character
has none. -/
theorem ofSourceMap_replaceForeign (m : SourceMap) :
    ofSourceMap { m with mappings := replaceForeign m.mappings } = ofSourceMap m ∧
    (∀ c ∈ (replaceForeign m.mappings).toList, isForeign c = false) ∧
    ∀ p ∈ segmentTexts m.mappings, ∀ c, p.2.getLast? = some c → isForeign c = true →
      ∃ e, ofSourceMap m = .error e := by
  refine ⟨?_, fun c => isForeign_of_mem_replaceForeign, ?_⟩
  · simp only [ofSourceMap, decode_replaceForeign]
  · intro p hp c hlast hc
    cases hm : ofSourceMap m with
    | error e => exact ⟨e, rfl⟩
    | ok a =>
        obtain ⟨-, ⟨raws, hraws, -⟩, -⟩ := ofSourceMap_eq_ok_iff.mp hm
        exact absurd hraws (decode_ne_ok_of_getLast? hp hlast hc raws)

/-- A map whose last segment ends in a foreign character. -/
def unfinished : SourceMap := ⟨3, none, ["a"], [], "g\x7fA,AAAA;A,gé", none, none⟩

theorem ofSourceMap_replaceForeign_unfinished :
    ofSourceMap { spoiled with mappings := "g/A" } = ofSourceMap spoiled ∧
    (ofSourceMap spoiled).isOk = true ∧
    replaceForeign unfinished.mappings = "g+A,AAAA;A,g//" ∧
    (∀ c ∈ "g+A,AAAA;A,g//".toList, isForeign c = false) ∧
    ∃ e, ofSourceMap unfinished = .error e := by
  have hreplaced : replaceForeign unfinished.mappings = "g+A,AAAA;A,g//" := by decide
  obtain ⟨-, hforeign, hrefused⟩ := ofSourceMap_replaceForeign unfinished
  refine ⟨(ofSourceMap_replaceForeign spoiled).1, isOk_ofSourceMap_spoiled, hreplaced, ?_, ?_⟩
  · rw [← hreplaced]
    exact hforeign
  · exact hrefused (1, ['g', 'é']) (by decide) 'é' rfl (by decide)

end Provenance.Atlas
