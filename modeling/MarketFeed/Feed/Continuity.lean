import MarketFeed.Feed.Error
import MarketFeed.Table

/-!
Continuity of numbered frames. The last number of each of the exchange's symbols is kept, and the
next frame of a symbol has to carry the one after it, zero coming after the greatest 64-bit number.
-/
namespace MarketFeed.Feed

/-- The last number by symbol. -/
abbrev Continuity := Table String UInt64

namespace Continuity

/-- Whether a number may come next for a symbol. A symbol's first number may be any. -/
def check (c : Continuity) (symbol : String) (sequence : UInt64) : Except Error Unit :=
  match c.find? symbol with
  | none => .ok ()
  | some last =>
    if last + 1 = sequence then .ok () else .error (.gap symbol (last + 1) sequence)

/-- Checks a number and keeps it as the last one. -/
def observe (c : Continuity) (symbol : String) (sequence : UInt64) : Except Error Continuity :=
  (c.check symbol sequence).map fun _ => c.insert symbol sequence

/-- Whether the number of a frame, if it has one, may come next. -/
def Allows (c : Continuity) (symbol : String) (sequence : Option UInt64) : Prop :=
  ∀ n, sequence = some n → c.check symbol n = .ok ()

/-- The numbers after a frame: its own, if it has one, becomes its symbol's last. -/
def keep (c : Continuity) (symbol : String) : Option UInt64 → Continuity
  | none => c
  | some n => c.insert symbol n

variable (c : Continuity) (symbol : String)

theorem check_eq_ok_iff (n : UInt64) :
    c.check symbol n = .ok () ↔ ∀ last, c.find? symbol = some last → last + 1 = n := by
  unfold check
  cases c.find? symbol with
  | none => simp
  | some last =>
    by_cases hnext : last + 1 = n
    · simp [hnext]
    · simp [hnext]

theorem check_eq_error_iff (n : UInt64) (e : Error) :
    c.check symbol n = .error e ↔
      ∃ last, c.find? symbol = some last ∧ last + 1 ≠ n ∧ e = .gap symbol (last + 1) n := by
  unfold check
  cases c.find? symbol with
  | none => simp
  | some last =>
    by_cases hnext : last + 1 = n
    · simp [hnext]
    · simp only [hnext, ite_false]
      constructor
      · intro he
        cases he
        exact ⟨last, rfl, hnext, rfl⟩
      · rintro ⟨last', hlast, -, rfl⟩
        cases hlast
        rfl

theorem observe_of_check {n : UInt64} (h : c.check symbol n = .ok ()) :
    c.observe symbol n = .ok (c.insert symbol n) := by
  rw [observe, h]
  rfl

theorem find?_keep (sequence : Option UInt64) (other : String) :
    (c.keep symbol sequence).find? other =
      if other = symbol then sequence.or (c.find? other) else c.find? other := by
  cases sequence with
  | none => simp [keep]
  | some n => simp [keep]

end Continuity

end MarketFeed.Feed
