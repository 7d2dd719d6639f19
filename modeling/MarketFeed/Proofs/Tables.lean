import Mathlib
import MarketFeed.Table

/-!
Tables as ordered lists. A table that was filled by insertion has its keys in ascending order. So it
holds no key twice, and two such tables are equal if every key is found in both with the same entry.
-/
namespace MarketFeed.Table

variable {κ β : Type} [LT κ]

/-- Whether the keys of a table stand in ascending order. -/
def Ascending (t : Table κ β) : Prop := t.entries.Pairwise fun e e' => e.1 < e'.1

theorem ascending_empty : (empty : Table κ β).Ascending := List.Pairwise.nil

variable [DecidableEq κ]

theorem mem_insertIn [DecidableLT κ] {k : κ} {v : β} {l : List (κ × β)} {e : κ × β}
    (h : e ∈ insertIn k v l) : e = (k, v) ∨ e ∈ l := by
  induction l with
  | nil => simpa [insertIn] using h
  | cons head rest ih =>
    simp only [insertIn] at h
    split at h
    · rcases List.mem_cons.mp h with hnew | hold
      · exact Or.inl hnew
      · exact Or.inr (List.mem_cons_of_mem _ hold)
    · split at h
      · exact List.mem_cons.mp h
      · rcases List.mem_cons.mp h with rfl | hrest
        · exact Or.inr List.mem_cons_self
        · rcases ih hrest with hnew | hold
          · exact Or.inl hnew
          · exact Or.inr (List.mem_cons_of_mem _ hold)

variable [IsStrictTotalOrder κ (· < ·)]

theorem Ascending.insert [DecidableLT κ] {t : Table κ β} (h : t.Ascending) (k : κ) (v : β) :
    (t.insert k v).Ascending := by
  obtain ⟨entries⟩ := t
  change (insertIn k v entries).Pairwise fun e e' => e.1 < e'.1
  change entries.Pairwise fun e e' => e.1 < e'.1 at h
  induction entries with
  | nil => simp [insertIn]
  | cons head rest ih =>
    obtain ⟨hhead, hrest⟩ := List.pairwise_cons.mp h
    simp only [insertIn]
    split
    · next heq =>
      subst heq
      exact List.pairwise_cons.mpr ⟨hhead, hrest⟩
    · next hne =>
      split
      · next hlt =>
        refine List.pairwise_cons.mpr ⟨fun e he => ?_, h⟩
        rcases List.mem_cons.mp he with rfl | he
        · exact hlt
        · exact Trans.trans hlt (hhead e he)
      · next hnlt =>
        refine List.pairwise_cons.mpr ⟨fun e he => ?_, ih hrest⟩
        rcases mem_insertIn he with rfl | he
        · rcases trichotomous_of (· < ·) k head.1 with hlt | heq | hgt
          · exact absurd hlt hnlt
          · exact absurd heq hne
          · exact hgt
        · exact hhead e he

/-- In a list with ascending keys an entry is found exactly if it is there. -/
theorem findIn_eq_some_iff {l : List (κ × β)} (h : l.Pairwise fun e e' => e.1 < e'.1) (k : κ)
    (v : β) : findIn k l = some v ↔ (k, v) ∈ l := by
  induction l with
  | nil => simp [findIn]
  | cons head rest ih =>
    obtain ⟨hhead, hrest⟩ := List.pairwise_cons.mp h
    simp only [findIn, List.mem_cons]
    split
    · next heq =>
      subst heq
      have hnone : (head.1, v) ∉ rest := fun hmem =>
        irrefl_of (· < ·) head.1 (hhead (head.1, v) hmem)
      simp [Prod.ext_iff, hnone, eq_comm]
    · next hne => simp [Prod.ext_iff, hne, ih hrest]

/-- Tables with the same content are equal. -/
theorem Ascending.eq_of_find? {t u : Table κ β} (ht : t.Ascending) (hu : u.Ascending)
    (hfind : ∀ k, t.find? k = u.find? k) : t = u := by
  obtain ⟨l⟩ := t
  obtain ⟨m⟩ := u
  have hirrefl : Std.Irrefl fun e e' : κ × β => e.1 < e'.1 := ⟨fun e => irrefl_of (· < ·) e.1⟩
  have hanti : Std.Antisymm fun e e' : κ × β => e.1 < e'.1 :=
    ⟨fun e e' hlt hgt => absurd hgt (asymm_of (· < ·) hlt)⟩
  have hentries : l = m := by
    refine List.Pairwise.eq_of_mem_iff ht hu fun e => ?_
    have hsame : findIn e.1 l = findIn e.1 m := hfind e.1
    calc e ∈ l ↔ findIn e.1 l = some e.2 := (findIn_eq_some_iff ht e.1 e.2).symm
      _ ↔ findIn e.1 m = some e.2 := by rw [hsame]
      _ ↔ e ∈ m := findIn_eq_some_iff hu e.1 e.2
  rw [hentries]

end MarketFeed.Table
