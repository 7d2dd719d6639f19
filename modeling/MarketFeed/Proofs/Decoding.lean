import MarketFeed.Feed.Frame

/-!
What reading a frame can fail with. Every function that a frame is read by either returns a value or
complains about the form of the frame, and binding two such functions gives another one.
-/
namespace MarketFeed.Feed.Frame

section Answers

variable {α β : Type} {x : Except Error α}

theorem bind_eq_ok_iff {g : α → Except Error β} {b : β} :
    (x >>= g) = .ok b ↔ ∃ a, x = .ok a ∧ g a = .ok b := by
  cases x with
  | error e => simp [bind, Except.bind]
  | ok a => simp [bind, Except.bind]

theorem map_eq_ok_iff {g : α → β} {b : β} : x.map g = .ok b ↔ ∃ a, x = .ok a ∧ g a = b := by
  cases x with
  | error e => simp [Except.map]
  | ok a => simp [Except.map]

theorem orMalformed_eq_ok_iff {value : Option α} {reason : String} {a : α} :
    orMalformed value reason = .ok a ↔ value = some a := by
  cases value with
  | none => simp [orMalformed, malformed]
  | some a => simp [orMalformed]

end Answers

/-- An answer that is no error but a complaint about the form of a frame. -/
def FormOnly {α : Type} (x : Except Error α) : Prop :=
  ∀ e, x = .error e → ∃ reason, e = .malformed reason

namespace FormOnly

variable {α β : Type}

theorem ok (a : α) : FormOnly (.ok a : Except Error α) := by
  intro e he
  cases he

theorem malformed (reason : String) : FormOnly (Frame.malformed reason : Except Error α) := by
  intro e he
  cases he
  exact ⟨reason, rfl⟩

theorem orMalformed (value : Option α) (reason : String) :
    FormOnly (Frame.orMalformed value reason) := by
  cases value with
  | none => exact malformed reason
  | some a => exact ok a

theorem bind {x : Except Error α} {g : α → Except Error β} (hx : FormOnly x)
    (hg : ∀ a, FormOnly (g a)) : FormOnly (x >>= g) := by
  cases x with
  | error e =>
    intro e' he
    cases he
    exact hx e rfl
  | ok a => exact hg a

theorem map {x : Except Error α} (g : α → β) (hx : FormOnly x) : FormOnly (x.map g) := by
  cases x with
  | error e =>
    intro e' he
    cases he
    exact hx e rfl
  | ok a => exact ok (g a)

theorem mapM {g : α → Except Error β} (hg : ∀ a, FormOnly (g a)) (l : List α) :
    FormOnly (l.mapM g) := by
  induction l with
  | nil => exact ok []
  | cons a rest ih =>
    rw [List.mapM_cons]
    exact bind (hg a) fun b => bind ih fun bs => ok (b :: bs)

end FormOnly

theorem timestamp_formOnly (raw : String) : FormOnly (timestamp raw) := by
  unfold timestamp
  split
  · exact FormOnly.ok _
  · exact FormOnly.malformed _

theorem sequence_formOnly (params : Json) : FormOnly (sequence params) := by
  unfold sequence
  split
  · exact FormOnly.ok _
  · exact FormOnly.ok _
  · split
    · exact FormOnly.ok _
    · exact FormOnly.malformed _

theorem tickerOf_formOnly (j : Json) (sequence : Option UInt64) :
    FormOnly (tickerOf j sequence) :=
  FormOnly.bind (FormOnly.orMalformed _ _) fun (_, _, _, raw) =>
    FormOnly.bind (timestamp_formOnly raw) fun _ => FormOnly.ok _

theorem bookOf_formOnly (j : Json) (sequence : Option UInt64) : FormOnly (bookOf j sequence) := by
  refine FormOnly.bind (FormOnly.orMalformed _ _) ?_
  rintro ⟨symbol, bid, ask, raw⟩
  cases raw with
  | none => exact FormOnly.bind (FormOnly.ok none) fun _ => FormOnly.ok _
  | some raw =>
    exact FormOnly.bind (FormOnly.map some (timestamp_formOnly raw)) fun _ => FormOnly.ok _

theorem tradesOf_formOnly (j : Json) (sequence : Option UInt64) :
    FormOnly (tradesOf j sequence) := by
  refine FormOnly.bind (FormOnly.orMalformed _ _) ?_
  rintro ⟨symbol, data⟩
  refine FormOnly.bind (FormOnly.mapM ?_ data) fun _ => FormOnly.ok _
  rintro ⟨execution, raw⟩
  exact FormOnly.map _ (timestamp_formOnly raw)

theorem ofMethod_formOnly (method frame : Json) : FormOnly (ofMethod method frame) := by
  refine FormOnly.bind (FormOnly.orMalformed _ _) fun name => ?_
  refine FormOnly.bind (FormOnly.orMalformed _ _) fun params => ?_
  refine FormOnly.bind (sequence_formOnly params) fun sequence => ?_
  split
  · exact tickerOf_formOnly params sequence
  · exact FormOnly.map _ (bookOf_formOnly params sequence)
  · exact FormOnly.map _ (bookOf_formOnly params sequence)
  · exact tradesOf_formOnly params sequence
  · exact tradesOf_formOnly params sequence
  · exact FormOnly.ok _

theorem ofChannel_formOnly (channel frame : Json) : FormOnly (ofChannel channel frame) := by
  unfold ofChannel
  split
  · exact FormOnly.bind (FormOnly.orMalformed _ _) fun data => tickerOf_formOnly data none
  · exact FormOnly.ok _
  · exact FormOnly.malformed _

theorem ofJson_formOnly (frame : Json) : FormOnly (ofJson frame) := by
  unfold ofJson
  split
  · next method _ => exact ofMethod_formOnly method frame
  · split
    · next channel _ => exact ofChannel_formOnly channel frame
    · split
      · exact FormOnly.ok _
      · split <;> exact FormOnly.ok _

/-- A text that cannot be read is malformed; there is no other way for reading to fail. -/
theorem decode_formOnly (raw : String) : FormOnly (decode raw) :=
  FormOnly.bind (FormOnly.orMalformed _ _) ofJson_formOnly

end MarketFeed.Feed.Frame
