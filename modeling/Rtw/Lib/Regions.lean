import Mathlib.Data.List.Nodup

/-!
# Steps on the regions of a memory

A memory is cut into regions; `region k` is that of the place `k`. A step for a region that reads and writes in it alone is
`Local`. After a run of steps for regions without duplicates a region is as its own step has left it (`foldl_apply`), and
that step may be thought to have been the first.
-/

namespace Regions

variable {K V R : Type*} {region : K → R} {step : (K → V) → R → K → V} {m : K → V} {k : K} {l : List R}

structure Local (region : K → R) (step : (K → V) → R → K → V) : Prop where
  frame : ∀ m r k, region k ≠ r → step m r k = m k
  congr : ∀ m m' r, (∀ k, region k = r → m k = m' k) → ∀ k, region k = r → step m r k = step m' r k

theorem foldl_of_notMem (h : Local region step) (hk : region k ∉ l) : l.foldl step m k = m k := by
  induction l generalizing m with
  | nil => rfl
  | cons r l ih =>
    rw [List.mem_cons, not_or] at hk
    rw [List.foldl_cons, ih hk.2, h.frame m r k hk.1]

theorem foldl_of_mem (h : Local region step) (hl : l.Nodup) (hk : region k ∈ l) : l.foldl step m k = step m (region k) k := by
  induction l generalizing m with
  | nil => cases hk
  | cons r l ih =>
    obtain ⟨hr, hl⟩ := List.nodup_cons.mp hl
    rw [List.foldl_cons]
    rcases List.mem_cons.mp hk with heq | hmem
    · rw [heq]
      exact foldl_of_notMem h (heq ▸ hr)
    · rw [ih hl hmem]
      refine h.congr _ _ _ (fun k' hk' => h.frame _ _ _ ?_) k rfl
      rintro rfl
      exact hr (hk' ▸ hmem)

/-- Each region is as its step leaves it. -/
theorem foldl_apply [DecidableEq R] (h : Local region step) (hl : l.Nodup) :
    l.foldl step m k = if region k ∈ l then step m (region k) k else m k := by
  split
  · case isTrue hk => exact foldl_of_mem h hl hk
  · case isFalse hk => exact foldl_of_notMem h hk

/-- A step that writes one place for each region. -/
theorem local_update [DecidableEq K] (region : K → R) (place : R → K) (hplace : ∀ r, region (place r) = r) (f : R → V → V) :
    Local region fun m r => Function.update m (place r) (f r (m (place r))) where
  frame m r k hk := Function.update_of_ne (fun h => hk ((congrArg region h).trans (hplace r))) ..
  congr m m' r heq k hk := by
    by_cases h : k = place r
    · rw [h, Function.update_self, Function.update_self, heq _ (hplace r)]
    · rw [Function.update_of_ne h, Function.update_of_ne h, heq k hk]

end Regions
