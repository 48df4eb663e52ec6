import FrontendAudit.Proofs.Rule.Accessibility.AltText
import Mathlib.Algebra.Order.BigOperators.Group.List
import Mathlib.Algebra.Order.Group.Nat
import Mathlib.Data.List.Perm.Basic

/-!
# One finding for each image

Three checks look at the alternative texts of images, each by itself. An image of which a text is
read has an `alt`, so that it is not reported for having none, and a text that is blank is not
generic. So of each image the three checks together report one thing at most
(`length_imageFindings_le`), and of a line no more than it has images (`image_findings_le`).
-/

namespace FrontendAudit.Accessibility

open Pattern

/-- What is reported of an image that has no `alt`, unless a prop stands in for it. -/
def missingAltFindings (source : Source) (index : Nat) (tag : List Char) : List Finding :=
  if altAttribute.occursIn tag || hasAltEquivalent tag then []
  else [source.report .missingAlt index "Image missing alt attribute"
    "Add descriptive alt text, or alt=\"\" if the image is purely decorative"]

/-- What is reported of the alternative text that is read in a tag, if one is. -/
def altTextFindings (source : Source) (index : Nat) (tag : List Char) : List Finding :=
  ((altValue.search? tag).map (·.group 2)).toList.flatMap fun text =>
    emptyAltFindings source index (hasAltEquivalent tag) text ++
      genericAltFindings source index text

/-- All that the three checks report of the tag of an image. -/
def imageFindings (source : Source) (index : Nat) (tag : List Char) : List Finding :=
  missingAltFindings source index tag ++ altTextFindings source index tag

theorem detectMissingAlt_eq_flatMap (line : List Char) (index : Nat) (source : Source) :
    detectMissingAlt line index source =
      (imageTags line source).flatMap (missingAltFindings source index) := by
  rw [detectMissingAlt, List.filterMap_eq_flatMap_toList]
  refine List.flatMap_congr fun tag _ => ?_
  rw [missingAltFindings]
  split <;> rfl

/-- The findings of the three checks on a line are those about its images, one image after the
other. -/
theorem imageFindings_perm (line : List Char) (index : Nat) (source : Source) :
    (detectMissingAlt line index source ++
        (detectEmptyAlt line index source ++ detectGenericAlt line index source)).Perm
      ((imageTags line source).flatMap (imageFindings source index)) := by
  have htexts : (detectEmptyAlt line index source ++ detectGenericAlt line index source).Perm
      ((imageTags line source).flatMap (altTextFindings source index)) := by
    rw [detectEmptyAlt_eq_flatMap, detectGenericAlt_eq_flatMap]
    refine (List.flatMap_append_perm ..).trans (.of_eq (List.flatMap_congr fun tag _ => ?_))
    rw [altTextFindings]
    cases altValue.search? tag <;> simp
  rw [detectMissingAlt_eq_flatMap]
  exact (htexts.append_left _).trans (List.flatMap_append_perm ..)

/-! ## Of one image -/

variable {source : Source} {index : Nat} {text : List Char}

theorem isGenericAlt_strip_of_blank (h : Text.isBlankText text = true) :
    isGenericAlt (Text.strip text) = false := by
  rw [Text.strip_eq_nil_iff.mpr h]
  decide

/-- A text is blank or generic, but not both. -/
theorem length_emptyAlt_append_genericAlt_le (described : Bool) :
    (emptyAltFindings source index described text ++ genericAltFindings source index text).length ≤
      1 := by
  rw [emptyAltFindings, genericAltFindings]
  by_cases hblank : Text.isBlankText text = true
  · rw [isGenericAlt_strip_of_blank hblank]
    split <;> simp
  · rw [if_neg (by simp [hblank]), List.nil_append]
    split <;> simp

theorem length_imageFindings_le (source : Source) (index : Nat) (tag : List Char) :
    (imageFindings source index tag).length ≤ 1 := by
  rw [imageFindings, missingAltFindings, altTextFindings]
  cases hread : altValue.search? tag with
  | none => split <;> simp
  | some m =>
      -- where a text is read there is an `alt`
      rw [(occursIn_of_search?_altValue hread).1, Bool.true_or, if_pos rfl, List.nil_append,
        Option.map_some, Option.toList_some, List.flatMap_singleton]
      exact length_emptyAlt_append_genericAlt_le _

/-! ## Of a line -/

theorem length_imageTags_le (line : List Char) (source : Source) :
    (imageTags line source).length ≤ (imageTag.allMatches line).length := by
  rw [imageTags]
  split
  · exact Nat.zero_le _
  · exact Nat.le_of_eq (List.length_map ..)

/-- The findings of the three checks of alternative texts on a line are those about its images one
by one, with one at most about each of them, so that there are no more than images on the line. -/
theorem image_findings_le (line : List Char) (index : Nat) (source : Source) :
    (detectMissingAlt line index source ++
        (detectEmptyAlt line index source ++ detectGenericAlt line index source)).Perm
      ((imageTags line source).flatMap (imageFindings source index)) ∧
    (∀ tag ∈ imageTags line source, (imageFindings source index tag).length ≤ 1) ∧
    (detectMissingAlt line index source).length + (detectEmptyAlt line index source).length +
        (detectGenericAlt line index source).length ≤ (imageTag.allMatches line).length := by
  have hone : ∀ tag ∈ imageTags line source, (imageFindings source index tag).length ≤ 1 :=
    fun tag _ => length_imageFindings_le source index tag
  have hperm := imageFindings_perm line index source
  refine ⟨hperm, hone, ?_⟩
  calc (detectMissingAlt line index source).length + (detectEmptyAlt line index source).length +
        (detectGenericAlt line index source).length
      = ((imageTags line source).flatMap (imageFindings source index)).length := by
        rw [← hperm.length_eq, List.length_append, List.length_append, Nat.add_assoc]
    _ = ((imageTags line source).map fun tag => (imageFindings source index tag).length).sum :=
        List.length_flatMap
    _ ≤ (imageTags line source).length := by
        simpa using List.sum_le_card_nsmul _ 1 (List.forall_mem_map.mpr hone)
    _ ≤ (imageTag.allMatches line).length := length_imageTags_le line source

end FrontendAudit.Accessibility
