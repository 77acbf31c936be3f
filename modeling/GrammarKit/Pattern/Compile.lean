import GrammarKit.Pattern.Reader
import GrammarKit.Pattern.Search

/-!
# Compiling patterns

An engine for regular expressions: a part of what can be written for them is read as patterns, and
the rest is refused.
-/

namespace GrammarKit.Pattern

theorem advance_le {steps taken n : Nat} {before : Option Char} {text : List Char}
    {ways : List Remainder} {best : Option Nat} (hbest : ∀ m, best = some m → m ≤ taken)
    (h : advance steps before text ways taken best = some n) : n ≤ taken + text.length := by
  induction text generalizing before ways taken best with
  | nil =>
    unfold advance at h
    split at h
    · exact Nat.le_of_eq (Option.some.inj h).symm
    · exact hbest n h
  | cons c text ih =>
    rw [List.length_cons]
    have hnow (ended : Bool) : ∀ m, (if ended then some taken else best) = some m → m ≤ taken := by
      intro m hm
      cases ended
      · exact hbest m hm
      · exact Nat.le_of_eq (Option.some.inj hm).symm
    unfold advance at h
    simp only at h
    split at h
    · have := hnow _ n h
      omega
    · have := ih (fun m hm => Nat.le_succ_of_le (hnow _ m hm)) h
      omega

theorem matchAt_le {p : Pattern} {before : Option Char} {text : List Char} {n : Nat}
    (h : p.matchAt before text = some n) : n ≤ text.length := by
  have := advance_le (by simp) h
  omega

theorem findFrom_le {p : Pattern} {before : Option Char} {text : List Char} {skipped : Nat}
    {found : Stretch} (h : p.findFrom before text skipped = some found) :
    found.stop ≤ skipped + text.length := by
  induction text generalizing before skipped with
  | nil =>
    obtain ⟨n, hn, rfl⟩ := Option.map_eq_some_iff.mp h
    exact Nat.add_le_add_left (matchAt_le hn) skipped
  | cons c text ih =>
    unfold findFrom at h
    split at h
    · rename_i n hn
      obtain rfl := Option.some.inj h
      exact Nat.add_le_add_left (matchAt_le hn) skipped
    · have := ih h
      rw [List.length_cons]
      omega

/-- Matches end in the text. -/
theorem find_le {p : Pattern} {text : List Char} {found : Stretch} (h : p.find text = some found) :
    found.stop ≤ text.length := by
  unfold find at h
  split at h
  · obtain ⟨n, hn, rfl⟩ := Option.map_eq_some_iff.mp h
    exact matchAt_le hn
  · have := findFrom_le h
    omega

def toRegex (p : Pattern) : Regex where
  find := p.find
  stop_le := find_le

/-- Compiles what can be read as a pattern. -/
def compile : Regex.Compiler := fun written =>
  (ofText? written).map toRegex

end GrammarKit.Pattern
