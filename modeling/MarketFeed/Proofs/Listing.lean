import Mathlib
import MarketFeed.Settings.Environment

/-!
Lists with commas. An item stands between two commas, or between one and an end of the text, without
the blanks around it; where nothing else stands there is no item.
-/
namespace MarketFeed

namespace Text.Blank

/-- A text between blanks, neither beginning nor ending with one. -/
structure Trims (s t : List Char) : Prop where
  between : ∃ lead trail, s = lead ++ (t ++ trail) ∧ (∀ c ∈ lead, isBlank c = true) ∧
    ∀ c ∈ trail, isBlank c = true
  first : ∀ c ∈ t.head?, isBlank c = false
  last : ∀ c ∈ t.getLast?, isBlank c = false

theorem trimStart_append {lead : List Char} (h : ∀ c ∈ lead, isBlank c = true) (s : List Char) :
    trimStart (lead ++ s) = trimStart s :=
  List.dropWhile_append_of_pos h

theorem trimStart_eq_self {s : List Char} (h : ∀ c ∈ s.head?, isBlank c = false) :
    trimStart s = s := by
  cases s with
  | nil => rfl
  | cons c rest => exact List.dropWhile_cons_of_neg (by simp [h c rfl])

theorem trimStart_of_blank {s : List Char} (h : ∀ c ∈ s, isBlank c = true) : trimStart s = [] :=
  List.dropWhile_eq_nil_iff.mpr h

theorem head?_trimStart (s : List Char) : ∀ c ∈ (trimStart s).head?, isBlank c = false := by
  intro c hc
  have hnot := List.head?_dropWhile_not isBlank s
  rw [trimStart] at hc
  rw [Option.mem_def.mp hc] at hnot
  exact hnot

/-- What is cut off in front are blanks. -/
theorem exists_append_trimStart (s : List Char) :
    ∃ lead, s = lead ++ trimStart s ∧ ∀ c ∈ lead, isBlank c = true :=
  ⟨s.takeWhile isBlank, List.takeWhile_append_dropWhile.symm, fun _ => List.mem_takeWhile_imp⟩

theorem trim_eq_iff (s t : List Char) : trim s = t ↔ Trims s t := by
  constructor
  · rintro rfl
    obtain ⟨lead, hlead, hleadBlank⟩ := exists_append_trimStart s
    obtain ⟨trail, htrail, htrailBlank⟩ := exists_append_trimStart (trimStart s).reverse
    have hrest : trimStart s = trim s ++ trail.reverse := by
      rw [← List.reverse_inj, htrail, List.reverse_append, List.reverse_reverse, trim,
        List.reverse_reverse]
    refine ⟨⟨lead, trail.reverse, by rw [← hrest, ← hlead], hleadBlank, ?_⟩, ?_, ?_⟩
    · simpa using htrailBlank
    · intro c hc
      refine head?_trimStart s c ?_
      rw [hrest, List.head?_append, Option.mem_def.mp hc]
      rfl
    · rw [trim, List.getLast?_reverse]
      exact head?_trimStart _
  · rintro ⟨⟨lead, trail, rfl, hlead, htrail⟩, hfirst, hlast⟩
    rw [trim, trimStart_append hlead]
    cases t with
    | nil =>
      rw [List.nil_append, trimStart_of_blank htrail]
      rfl
    | cons c rest =>
      have hreverse : ∀ d ∈ trail.reverse, isBlank d = true := by simpa using htrail
      have hstart : trimStart (c :: rest ++ trail) = c :: rest ++ trail :=
        trimStart_eq_self (by simpa using hfirst)
      rw [hstart, List.reverse_append, trimStart_append hreverse,
        trimStart_eq_self (by rwa [List.head?_reverse]), List.reverse_reverse]

end Text.Blank

namespace Settings

theorem commaParts_eq_splitOn (s : List Char) : commaParts s = s.splitOn ',' := by
  induction s with
  | nil => rfl
  | cons c rest ih =>
    have hcons : (c :: rest).splitOn ',' = if c = ',' then [] :: rest.splitOn ','
        else (rest.splitOn ',').modifyHead (c :: ·) := by
      simp [List.splitOn, List.splitOnP_cons_eq_if_modifyHead]
    rw [hcons, commaParts, ih]
    split
    · rfl
    · cases hrest : rest.splitOn ',' with
      | nil => exact absurd hrest (List.splitOnP_ne_nil _ rest)
      | cons part parts => rfl

/-- An item of a list with commas. -/
def IsItem (text item : String) : Prop :=
  item ≠ "" ∧ ∃ part ∈ text.toList.splitOn ',', Text.Blank.Trims part item.toList

theorem mem_listed_iff (text item : String) : item ∈ listed text ↔ IsItem text item := by
  have hempty : ∀ s : List Char, s ≠ [] ↔ String.ofList s ≠ "" := by simp
  simp only [listed, List.mem_map, List.mem_filter, decide_eq_true_eq, commaParts_eq_splitOn,
    IsItem, ← Text.Blank.trim_eq_iff]
  constructor
  · rintro ⟨_, ⟨⟨part, hpart, rfl⟩, hne⟩, rfl⟩
    exact ⟨(hempty _).mp hne, part, hpart, String.toList_ofList.symm⟩
  · rintro ⟨hne, part, hpart, htrim⟩
    refine ⟨_, ⟨⟨part, hpart, htrim⟩, ?_⟩, String.ofList_toList⟩
    rwa [hempty, String.ofList_toList]

end Settings

end MarketFeed
