import Mathlib.Order.Compare
import TreeLint.Analysis.Unit

/-!
# The order of versions

Every part of the order of versions compares keys, one after the other: whether a segment is a
number, what it is without leading zeros, how long it is. So the order is transitive through all of
its cases, and a version stays behind every version that an earlier one has reached
(`TreeLint.Version.atLeast_mono`).
-/

namespace TreeLint.Version

open Std

theorem transCmp_comap {α β : Type} (order : α → α → Ordering) [TransCmp order] (key : β → α) :
    TransCmp fun first second => order (key first) (key second) where
  eq_swap := OrientedCmp.eq_swap
  isLE_trans := TransCmp.isLE_trans

/-! ### Segments -/

theorem compareSegments_eq (order : String → String → Ordering) :
    compareSegments order = List.compareLex order := by
  funext firsts seconds
  induction firsts generalizing seconds with
  | nil => cases seconds <;> rfl
  | cons first firsts ih =>
      cases seconds with
      | nil => rfl
      | cons second seconds =>
          rw [compareSegments, ih, List.compareLex]
          cases order first second <;> rfl

instance (order : String → String → Ordering) [TransCmp order] :
    TransCmp (compareSegments order) := by
  rw [compareSegments_eq]
  infer_instance

theorem comparePreReleaseSegment_eq : comparePreReleaseSegment =
    compareLex (compareOn fun segment => !isNumeric segment) (compareLex
      (compareOn fun segment => if isNumeric segment then segment.length else 0) compare) := by
  funext first second
  simp only [comparePreReleaseSegment, compareLex, compareOn]
  cases isNumeric first <;> cases isNumeric second <;> rfl

instance : TransCmp comparePreReleaseSegment := by
  rw [comparePreReleaseSegment_eq]
  infer_instance

theorem compareBuildSegment_eq : compareBuildSegment =
    compareLex (compareOn fun segment => !isNumeric segment) (compareLex
      (compareOn fun segment => if isNumeric segment then (withoutZeros segment).length else 0)
      (compareLex
        (compareOn fun segment => if isNumeric segment then withoutZeros segment else segment)
        (compareOn fun segment => if isNumeric segment then segment.length else 0))) := by
  funext first second
  cases alpha : isNumeric first <;> cases alphaToo : isNumeric second <;>
    simp only [compareBuildSegment, compareLex, compareOn, alpha, alphaToo, Bool.false_eq_true,
      ↓reduceIte, Bool.not_false, Bool.not_true]
  · rw [ReflOrd.compare_self, ReflOrd.compare_self, Ordering.eq_then, Ordering.eq_then,
      Ordering.then_eq]
  · rfl
  · rfl
  · rw [ReflOrd.compare_self, Ordering.eq_then, Ordering.then_assoc]

instance : TransCmp compareBuildSegment := by
  rw [compareBuildSegment_eq]
  infer_instance

/-! ### Versions -/

theorem comparePreRelease_eq : comparePreRelease =
    compareLex (compareOn List.isEmpty) (compareSegments comparePreReleaseSegment) := by
  funext first second
  cases first <;> cases second <;> rfl

instance : TransCmp comparePreRelease := by
  rw [comparePreRelease_eq]
  infer_instance

theorem order_eq : order =
    compareLex (compareOn major) (compareLex (compareOn minor) (compareLex (compareOn patch)
      (compareLex (fun first second => comparePreRelease first.preRelease second.preRelease)
        fun first second => compareSegments compareBuildSegment first.build second.build))) := by
  funext first second
  simp only [order, compareLex, compareOn]

instance : TransCmp order := by
  have preReleases := transCmp_comap comparePreRelease preRelease
  have builds := transCmp_comap (compareSegments compareBuildSegment) build
  rw [order_eq]
  infer_instance

theorem atLeast_iff {version bound : Version} :
    version.atLeast bound = true ↔ (version.order bound).isGE = true := by
  rw [atLeast, bne_iff_ne, Ordering.isGE_iff_ne_lt]

/-- What a version has reached, later versions have reached. -/
theorem atLeast_mono {version later bound : Version} (le : version.order later ≠ .gt)
    (reached : version.atLeast bound = true) : later.atLeast bound = true := by
  rw [atLeast_iff] at reached ⊢
  refine TransCmp.isGE_trans ?_ reached
  rw [OrientedCmp.isGE_iff_isLE, Ordering.isLE_iff_ne_gt]
  exact le

theorem supportsNamedTuples_of_inferred {version : Version}
    (supports : version.supportsInferredNames = true) : version.supportsNamedTuples = true := by
  rw [supportsInferredNames, atLeast_iff] at supports
  rw [supportsNamedTuples, atLeast_iff]
  have gates : (inferredTupleNames.order namedTuples).isGE = true := rfl
  exact TransCmp.isGE_trans supports gates

/-- A pre-release of the version with inferred names has named tuples but no inferred names. -/
example : (⟨7, 1, 0, ["rc", "1"], []⟩ : Version).supportsNamedTuples = true ∧
    (⟨7, 1, 0, ["rc", "1"], []⟩ : Version).supportsInferredNames = false := by
  decide

end TreeLint.Version
