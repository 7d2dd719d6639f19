import Mathlib
import MarketFeed.Proofs.Names

/-!
The symbol table that the exchange's list of instruments makes. The id of an instrument is cut after
as many octets as its base currency has, if a character ends there and something is left. As no
character of a separator stands in an id, the standard name still shows where the id was cut. So
different ids have different standard names, no instrument takes the place of another in any of the
three lookups, and they know the names of the instruments that can be cut and nothing else.
-/
namespace MarketFeed

namespace Table

variable {κ β : Type} [DecidableEq κ] [LT κ] [DecidableLT κ]

theorem length_insertIn {k : κ} (v : β) {l : List (κ × β)} (hnew : findIn k l = none) :
    (insertIn k v l).length = l.length + 1 := by
  induction l with
  | nil => rfl
  | cons e rest ih =>
    simp only [findIn] at hnew
    split at hnew
    · cases hnew
    · next hne =>
      simp only [insertIn, if_neg hne]
      split
      · rfl
      · rw [List.length_cons, ih hnew, List.length_cons]

/-- A table with an entry for each of several different keys has as many entries. -/
theorem size_ofList {l : List (κ × β)} (hkeys : (l.map Prod.fst).Nodup) :
    (ofList l).size = l.length := by
  induction l using List.reverseRecOn with
  | nil => rfl
  | append_singleton front e ih =>
    rw [List.map_append, List.nodup_append] at hkeys
    obtain ⟨hfront, -, hlast⟩ := hkeys
    have hnew : (ofList front).find? e.1 = none := by
      rw [find?_ofList, Option.map_eq_none_iff, List.find?_eq_none]
      intro e' he' heq
      exact hlast e'.1 (List.mem_map_of_mem (List.mem_reverse.mp he')) e.1 (by simp)
        (of_decide_eq_true heq)
    have hlength := length_insertIn e.2 hnew
    rw [ofList_concat, List.length_append, List.length_singleton, ← ih hfront]
    exact hlength

end Table

namespace Feed

open Number

/-- A text is cut where its front has so many octets. -/
theorem cut?_eq_some_iff {octets : Nat} {s front back : List Char} :
    cut? octets s = some (front, back) ↔
      s = front ++ back ∧ (String.ofList front).utf8ByteSize = octets := by
  induction octets, s using cut?.induct generalizing front with
  | case1 s =>
    simp only [cut?, Option.some.injEq, Prod.mk.injEq, String.utf8ByteSize_eq_zero_iff]
    constructor
    · rintro ⟨rfl, rfl⟩
      exact ⟨rfl, rfl⟩
    · rintro ⟨rfl, hempty⟩
      obtain rfl : front = [] := by simpa using hempty
      exact ⟨rfl, rfl⟩
  | case2 octets =>
    simp only [cut?, reduceCtorEq, false_iff, not_and]
    intro hnil
    obtain ⟨rfl, -⟩ := List.append_eq_nil_iff.mp hnil.symm
    simp
  | case3 octets c rest hfits ih =>
    have hpos := c.utf8Size_pos
    simp only [cut?, if_pos hfits, Option.map_eq_some_iff, Prod.exists, Prod.mk.injEq]
    constructor
    · rintro ⟨front', back', hcut, rfl, rfl⟩
      obtain ⟨hrest, hsize⟩ := ih.mp hcut
      refine ⟨by rw [hrest, List.cons_append], ?_⟩
      rw [String.ofList_cons, String.utf8ByteSize_append, String.utf8ByteSize_singleton, hsize]
      omega
    · rintro ⟨hsplit, hsize⟩
      cases front with
      | nil => simp at hsize
      | cons c' front =>
        obtain ⟨rfl, hrest⟩ := List.cons.inj hsplit
        rw [String.ofList_cons, String.utf8ByteSize_append, String.utf8ByteSize_singleton] at hsize
        exact ⟨front, back, ih.mpr ⟨hrest, by omega⟩, rfl, rfl⟩
  | case4 octets c rest hlong =>
    simp only [cut?, if_neg hlong, reduceCtorEq, false_iff, not_and]
    intro hsplit hsize
    cases front with
    | nil => simp at hsize
    | cons c' front =>
      obtain ⟨rfl, -⟩ := List.cons.inj hsplit
      rw [String.ofList_cons, String.utf8ByteSize_append, String.utf8ByteSize_singleton] at hsize
      omega

namespace Instrument

/-- An id in two parts, of which the first is as long as the base currency and neither is empty. -/
structure Splits (i : Instrument) (base quote : String) : Prop where
  id_eq : i.id = base ++ quote
  length_eq : base.utf8ByteSize = i.base.utf8ByteSize
  base_ne : base ≠ ""
  quote_ne : quote ≠ ""

/-- An instrument whose base currency is not empty and is shorter than its id, in which a character
ends where the base currency does. -/
def Listed (i : Instrument) : Prop :=
  0 < i.base.utf8ByteSize ∧ i.base.utf8ByteSize < i.id.utf8ByteSize ∧
    String.Pos.Raw.IsValid i.id ⟨i.base.utf8ByteSize⟩

instance : DecidablePred Listed := fun _ => inferInstanceAs (Decidable (_ ∧ _ ∧ _))

theorem listed_iff (i : Instrument) : i.Listed ↔ ∃ base quote, i.Splits base quote := by
  unfold Listed
  rw [String.Pos.Raw.isValid_iff_exists_append]
  constructor
  · rintro ⟨hbase, hid, base, quote, hsplit, hboundary⟩
    have hlength : base.utf8ByteSize = i.base.utf8ByteSize :=
      (congrArg String.Pos.Raw.byteIdx hboundary).symm
    rw [hsplit, String.utf8ByteSize_append] at hid
    refine ⟨base, quote, hsplit, hlength, ?_, ?_⟩
    · rintro rfl
      rw [String.utf8ByteSize_empty] at hlength
      omega
    · rintro rfl
      rw [String.utf8ByteSize_empty] at hid
      omega
  · rintro ⟨base, quote, hsplits⟩
    have hbase := mt String.utf8ByteSize_eq_zero_iff.mp hsplits.base_ne
    have hquote := mt String.utf8ByteSize_eq_zero_iff.mp hsplits.quote_ne
    rw [← hsplits.length_eq, hsplits.id_eq, String.utf8ByteSize_append]
    exact ⟨by omega, by omega, base, quote, rfl, rfl⟩

theorem parts?_eq_some_iff {i : Instrument} {base quote : List Char} :
    i.parts? = some (base, quote) ↔ i.Splits (String.ofList base) (String.ofList quote) := by
  have hcut : cut? i.base.utf8ByteSize i.id.toList = some (base, quote) ↔
      i.id = String.ofList base ++ String.ofList quote ∧
        (String.ofList base).utf8ByteSize = i.base.utf8ByteSize := by
    rw [cut?_eq_some_iff, ← String.toList_inj, String.toList_append, String.toList_ofList,
      String.toList_ofList]
  have hempty : ∀ s : List Char, s = [] ↔ String.ofList s = "" := by simp
  constructor
  · intro hparts
    unfold parts? at hparts
    split at hparts
    · next hsome =>
      split at hparts
      · cases hparts
      · next hne =>
        cases hparts
        obtain ⟨hid, hlength⟩ := hcut.mp hsome
        rw [not_or] at hne
        exact ⟨hid, hlength, mt (hempty _).mpr hne.1, mt (hempty _).mpr hne.2⟩
    · cases hparts
  · rintro ⟨hid, hlength, hbase, hquote⟩
    rw [ne_eq, ← hempty] at hbase hquote
    simp only [parts?, hcut.mpr ⟨hid, hlength⟩, hbase, hquote, or_self, if_false]

theorem standard?_eq_some_iff {i : Instrument} {separator name : String} :
    i.standard? separator = some name ↔
      ∃ base quote, i.Splits base quote ∧ name = base ++ separator ++ quote := by
  rw [standard?, Option.map_eq_some_iff]
  constructor
  · rintro ⟨⟨base, quote⟩, hparts, rfl⟩
    exact ⟨_, _, parts?_eq_some_iff.mp hparts, rfl⟩
  · rintro ⟨base, quote, hsplits, rfl⟩
    refine ⟨(base.toList, quote.toList), parts?_eq_some_iff.mpr ?_, ?_⟩
    · rwa [String.ofList_toList, String.ofList_toList]
    · simp only [String.ofList_toList]

theorem isSome_standard? (i : Instrument) (separator : String) :
    (i.standard? separator).isSome = decide i.Listed := by
  rw [Bool.eq_iff_iff, decide_eq_true_iff, Option.isSome_iff_exists, listed_iff]
  constructor
  · rintro ⟨name, hname⟩
    obtain ⟨base, quote, hsplits, -⟩ := standard?_eq_some_iff.mp hname
    exact ⟨base, quote, hsplits⟩
  · rintro ⟨base, quote, hsplits⟩
    exact ⟨_, standard?_eq_some_iff.mpr ⟨base, quote, hsplits, rfl⟩⟩

/-- Whether a separator leaves the parts of an id recognizable. -/
def Separates (i : Instrument) (separator : String) : Prop :=
  separator = "" ∨ ∀ c ∈ separator.toList, c ∉ i.id.toList

/-- What stands before the first separator is known, whatever follows it. -/
theorem front_eq_of_append {c : Char} {front front' back back' : List Char} (hfront : c ∉ front)
    (hfront' : c ∉ front') (heq : front ++ c :: back = front' ++ c :: back') : front = front' := by
  have htake : ∀ {s : List Char} (t : List Char), c ∉ s →
      (s ++ c :: t).takeWhile (fun d => d ≠ c) = s := by
    intro s t hs
    have hall : ∀ d ∈ s, decide (d ≠ c) = true := by
      intro d hd
      rw [decide_eq_true_iff]
      rintro rfl
      exact hs hd
    rw [List.takeWhile_append_of_pos hall, List.takeWhile_cons_of_neg (by simp), List.append_nil]
  rw [← htake back hfront, heq, htake back' hfront']

/-- Different ids have different standard names. -/
theorem id_eq_of_standard {separator : String} {i j : Instrument} {base quote base' quote' : String}
    (hi : i.Splits base quote) (hj : j.Splits base' quote') (hsi : i.Separates separator)
    (hsj : j.Separates separator)
    (heq : base ++ separator ++ quote = base' ++ separator ++ quote') : i.id = j.id := by
  rw [hi.id_eq, hj.id_eq]
  rcases hsi with rfl | hsi
  · simpa using heq
  rcases hsj with rfl | hsj
  · simpa using heq
  cases hs : separator.toList with
  | nil =>
    obtain rfl : separator = "" := by simpa using hs
    simpa using heq
  | cons c rest =>
    have hmem : c ∈ separator.toList := hs ▸ List.mem_cons_self
    have hbase : c ∉ base.toList := fun hc => hsi c hmem (by simp [hi.id_eq, hc])
    have hbase' : c ∉ base'.toList := fun hc => hsj c hmem (by simp [hj.id_eq, hc])
    have hlists := congrArg String.toList heq
    simp only [String.toList_append, hs, List.append_assoc, List.cons_append] at hlists
    have hfront := front_eq_of_append hbase hbase' hlists
    rw [hfront, List.append_cancel_left_eq, List.cons.injEq, List.append_cancel_left_eq] at hlists
    rw [String.toList_inj.mp hfront, String.toList_inj.mp hlists.2]

/-- An id that is no standard name of its own is not that of another instrument either. -/
theorem listed_of_id_eq {separator : String} {i j : Instrument} {base quote : String}
    (hj : j.Splits base quote) (hsi : i.Separates separator) (hsame : i.id = j.id → i = j)
    (heq : i.id = base ++ separator ++ quote) : i.Listed := by
  have hempty : separator = "" := by
    rcases hsi with hempty | hfree
    · exact hempty
    cases hs : separator.toList with
    | nil => simpa using hs
    | cons c rest =>
      have hmem : c ∈ separator.toList := hs ▸ List.mem_cons_self
      exact absurd (by simp [heq, hmem]) (hfree c hmem)
  rw [hempty, String.append_empty, ← hj.id_eq] at heq
  rw [hsame heq, listed_iff]
  exact ⟨base, quote, hj⟩

end Instrument

namespace SymbolTable

open Instrument

/-- A part of each instrument that has a standard name, beside this name. -/
def byName {α : Type} (separator : String) (part : Instrument → α) (instruments : List Instrument) :
    List (String × α) :=
  instruments.filterMap fun i => (i.standard? separator).map fun name => (name, part i)

variable {α : Type} {separator : String} {part : Instrument → α} {instruments : List Instrument}

theorem byName_concat (front : List Instrument) (i : Instrument) :
    byName separator part (front ++ [i]) =
      byName separator part front ++
        ((i.standard? separator).map fun name => (name, part i)).toList := by
  rw [byName, List.filterMap_append, ← byName]
  cases hname : i.standard? separator with
  | none => simp [hname]
  | some name => simp [hname]

theorem mem_byName {name : String} {a : α} :
    (name, a) ∈ byName separator part instruments ↔
      ∃ i ∈ instruments, a = part i ∧
        ∃ base quote, i.Splits base quote ∧ name = base ++ separator ++ quote := by
  simp only [byName, List.mem_filterMap, Option.map_eq_some_iff, Prod.mk.injEq,
    standard?_eq_some_iff]
  constructor
  · rintro ⟨i, hi, _, hname, rfl, rfl⟩
    exact ⟨i, hi, rfl, hname⟩
  · rintro ⟨i, hi, rfl, hname⟩
    exact ⟨i, hi, name, hname, rfl, rfl⟩

theorem map_fst_byName :
    (byName separator part instruments).map Prod.fst =
      instruments.filterMap (·.standard? separator) := by
  rw [byName, List.map_filterMap]
  refine List.filterMap_congr fun i _ => ?_
  rw [Option.map_map]
  exact Option.map_id'

theorem length_byName (separator : String) (part : Instrument → String)
    (instruments : List Instrument) :
    (byName separator part instruments).length =
      (instruments.filter fun i => i.Listed).length := by
  rw [← List.length_map Prod.fst, map_fst_byName, List.length_filterMap_eq_countP,
    ← List.countP_eq_length_filter]
  exact List.countP_congr fun i _ => by rw [isSome_standard?]

theorem nodup_byName (hids : (instruments.map Instrument.id).Nodup)
    (hseparates : ∀ i ∈ instruments, i.Separates separator) :
    ((byName separator part instruments).map Prod.fst).Nodup := by
  rw [map_fst_byName, List.Nodup, List.pairwise_filterMap]
  refine (List.pairwise_map.mp hids).imp_of_mem ?_
  rintro i j hi hj hne name hname _ hname' rfl
  obtain ⟨base, quote, hsplits, hjoined⟩ := standard?_eq_some_iff.mp hname
  obtain ⟨base', quote', hsplits', hjoined'⟩ := standard?_eq_some_iff.mp hname'
  exact hne (id_eq_of_standard hsplits hsplits' (hseparates i hi) (hseparates j hj)
    (hjoined.symm.trans hjoined'))

theorem nodup_snd_byName (hids : (instruments.map Instrument.id).Nodup) :
    ((byName separator Instrument.id instruments).map Prod.snd).Nodup := by
  rw [List.Nodup, List.pairwise_map, byName, List.pairwise_filterMap]
  refine (List.pairwise_map.mp hids).imp ?_
  rintro i j hne p hp q hq
  obtain ⟨_, -, rfl⟩ := Option.map_eq_some_iff.mp hp
  obtain ⟨_, -, rfl⟩ := Option.map_eq_some_iff.mp hq
  exact hne

theorem ofInstruments_eq (separator : String) (instruments : List Instrument) :
    ofInstruments separator instruments =
      { ofPairs (byName separator Instrument.id instruments) with
        ticks := Table.ofList (byName separator Instrument.tick instruments) } := by
  induction instruments using List.reverseRecOn with
  | nil => rfl
  | append_singleton front i ih =>
    rw [ofInstruments, List.foldl_append, ← ofInstruments, ih, byName_concat, byName_concat]
    cases hname : i.standard? separator with
    | none => simp [addInstrument, hname]
    | some name => simp [addInstrument, hname, ofPairs, insert, Table.ofList]

theorem tick?_ofInstruments_iff (hids : (instruments.map Instrument.id).Nodup)
    (hseparates : ∀ i ∈ instruments, i.Separates separator) {name : String} {tick : Decimal} :
    (ofInstruments separator instruments).tick? name = some tick ↔
      (name, tick) ∈ byName separator Instrument.tick instruments := by
  rw [ofInstruments_eq]
  refine Table.find?_ofList_iff (fun e he e' he' heq => ?_) name tick
  rw [List.inj_on_of_nodup_map (nodup_byName hids hseparates) he he' heq]

theorem exchangeSymbol_ofInstruments_iff (hids : (instruments.map Instrument.id).Nodup)
    (hseparates : ∀ i ∈ instruments, i.Separates separator) {name id : String} :
    (ofInstruments separator instruments).exchangeSymbol name = .ok id ↔
      (name, id) ∈ byName separator Instrument.id instruments := by
  rw [ofInstruments_eq]
  exact exchangeSymbol_ofPairs_iff
    (oneToOne_of_nodup (nodup_byName hids hseparates) (nodup_snd_byName hids))

theorem standardSymbol_ofInstruments_iff (hids : (instruments.map Instrument.id).Nodup)
    (hseparates : ∀ i ∈ instruments, i.Separates separator) {name id : String} :
    (ofInstruments separator instruments).standardSymbol id = .ok name ↔
      (name, id) ∈ byName separator Instrument.id instruments := by
  rw [ofInstruments_eq]
  exact standardSymbol_ofPairs_iff
    (oneToOne_of_nodup (nodup_byName hids hseparates) (nodup_snd_byName hids))

theorem size_ofInstruments (hids : (instruments.map Instrument.id).Nodup)
    (hseparates : ∀ i ∈ instruments, i.Separates separator) :
    (ofInstruments separator instruments).size =
      (instruments.filter fun i => i.Listed).length := by
  rw [ofInstruments_eq, ← length_byName separator Instrument.id,
    ← Table.size_ofList (nodup_byName hids hseparates), ← exchange_ofPairs]
  rfl

variable {t : SymbolTable} {name : String}

theorem exchangeSymbol_of_unknown (h : ∀ id, t.exchangeSymbol name ≠ .ok id) :
    t.exchangeSymbol name = .error (.unknownSymbol name) := by
  unfold exchangeSymbol at h ⊢
  cases hfind : t.exchange.find? name with
  | none => rfl
  | some id => exact absurd (by rw [hfind]) (h id)

theorem standardSymbol_of_unknown (h : ∀ id, t.standardSymbol name ≠ .ok id) :
    t.standardSymbol name = .error (.unknownSymbol name) := by
  unfold standardSymbol at h ⊢
  cases hfind : t.standard.find? name with
  | none => rfl
  | some id => exact absurd (by rw [hfind]) (h id)

/-- An instrument that can be cut is found by its two names, with its smallest step. -/
theorem ofInstruments_of_splits (hids : (instruments.map Instrument.id).Nodup)
    (hseparates : ∀ i ∈ instruments, i.Separates separator) {i : Instrument} (hi : i ∈ instruments)
    {base quote : String} (hsplits : i.Splits base quote) :
    (ofInstruments separator instruments).exchangeSymbol (base ++ separator ++ quote) = .ok i.id ∧
      (ofInstruments separator instruments).standardSymbol i.id =
        .ok (base ++ separator ++ quote) ∧
      (ofInstruments separator instruments).tick? (base ++ separator ++ quote) = some i.tick := by
  have hmem : ∀ {α : Type} (part : Instrument → α),
      (base ++ separator ++ quote, part i) ∈ byName separator part instruments := by
    intro α part
    exact mem_byName.mpr ⟨i, hi, rfl, base, quote, hsplits, rfl⟩
  exact ⟨(exchangeSymbol_ofInstruments_iff hids hseparates).mpr (hmem Instrument.id),
    (standardSymbol_ofInstruments_iff hids hseparates).mpr (hmem Instrument.id),
    (tick?_ofInstruments_iff hids hseparates).mpr (hmem Instrument.tick)⟩

/-- No text but the standard names is known as one. -/
theorem ofInstruments_of_name_ne (hids : (instruments.map Instrument.id).Nodup)
    (hseparates : ∀ i ∈ instruments, i.Separates separator) {text : String}
    (hother : ∀ i ∈ instruments, ∀ base quote, i.Splits base quote →
      text ≠ base ++ separator ++ quote) :
    (ofInstruments separator instruments).exchangeSymbol text = .error (.unknownSymbol text) ∧
      (ofInstruments separator instruments).tick? text = none := by
  have hmem : ∀ {α : Type} (part : Instrument → α) (a : α),
      (text, a) ∉ byName separator part instruments := by
    intro α part a hmem
    obtain ⟨i, hi, -, base, quote, hsplits, hname⟩ := mem_byName.mp hmem
    exact hother i hi base quote hsplits hname
  constructor
  · refine exchangeSymbol_of_unknown fun id hid => ?_
    exact hmem Instrument.id id ((exchangeSymbol_ofInstruments_iff hids hseparates).mp hid)
  · refine Option.eq_none_iff_forall_ne_some.mpr fun tick htick => ?_
    exact hmem Instrument.tick tick ((tick?_ofInstruments_iff hids hseparates).mp htick)

/-- No text but the ids of the instruments that can be cut is known as an id. -/
theorem ofInstruments_of_id_ne (hids : (instruments.map Instrument.id).Nodup)
    (hseparates : ∀ i ∈ instruments, i.Separates separator) {text : String}
    (hother : ∀ i ∈ instruments, i.Listed → text ≠ i.id) :
    (ofInstruments separator instruments).standardSymbol text = .error (.unknownSymbol text) := by
  refine standardSymbol_of_unknown fun name hname => ?_
  rw [standardSymbol_ofInstruments_iff hids hseparates, mem_byName] at hname
  obtain ⟨i, hi, hid, base, quote, hsplits, -⟩ := hname
  exact hother i hi (i.listed_iff.mpr ⟨base, quote, hsplits⟩) hid

end SymbolTable

/-- The table of a list of instruments with different ids, if no character of the separator stands
in an id: it is made whatever the ids are, an instrument is in it exactly if its id can be cut after
its base currency, and its names and its smallest step are found there. Nothing else is. -/
theorem instruments_known {payload separator : String} {instruments : List Instrument}
    (hread : (Json.ofText? payload).bind (Json.list? Instrument.ofJson?) = some instruments)
    (hids : (instruments.map Instrument.id).Nodup)
    (hseparator : separator = "" ∨
      ∀ i ∈ instruments, ∀ c ∈ separator.toList, c ∉ i.id.toList) :
    ∃ t, SymbolTable.ofPayload payload separator = .ok t ∧
      (∀ i ∈ instruments, (i.Listed ↔ ∃ base quote, i.Splits base quote) ∧
        ∀ base quote, i.Splits base quote →
          t.exchangeSymbol (base ++ separator ++ quote) = .ok i.id ∧
          t.standardSymbol i.id = .ok (base ++ separator ++ quote) ∧
          t.tick? (base ++ separator ++ quote) = some i.tick) ∧
      t.size = (instruments.filter fun i => i.Listed).length ∧
      (∀ text, (∀ i ∈ instruments, ∀ base quote, i.Splits base quote →
          text ≠ base ++ separator ++ quote) →
        t.exchangeSymbol text = .error (.unknownSymbol text) ∧ t.tick? text = none) ∧
      (∀ text, (∀ i ∈ instruments, i.Listed → text ≠ i.id) →
        t.standardSymbol text = .error (.unknownSymbol text)) ∧
      (∀ i ∈ instruments, ¬ i.Listed →
        t.exchangeSymbol i.id = .error (.unknownSymbol i.id) ∧
        t.standardSymbol i.id = .error (.unknownSymbol i.id) ∧ t.tick? i.id = none) := by
  have hseparates : ∀ i ∈ instruments, i.Separates separator := by
    intro i hi
    exact hseparator.imp_right fun hfree => hfree i hi
  have hsame : ∀ i ∈ instruments, ∀ j ∈ instruments, i.id = j.id → i = j := by
    intro i hi j hj heq
    exact List.inj_on_of_nodup_map hids hi hj heq
  refine ⟨SymbolTable.ofInstruments separator instruments, ?_, ?_,
    SymbolTable.size_ofInstruments hids hseparates, ?_, ?_, ?_⟩
  · simp only [SymbolTable.ofPayload, hread]
  · intro i hi
    refine ⟨i.listed_iff, fun base quote hsplits => ?_⟩
    exact SymbolTable.ofInstruments_of_splits hids hseparates hi hsplits
  · intro text hother
    exact SymbolTable.ofInstruments_of_name_ne hids hseparates hother
  · intro text hother
    exact SymbolTable.ofInstruments_of_id_ne hids hseparates hother
  · intro i hi hskipped
    obtain ⟨hname, htick⟩ := SymbolTable.ofInstruments_of_name_ne hids hseparates
      fun j hj base quote hsplits heq =>
        hskipped (Instrument.listed_of_id_eq hsplits (hseparates i hi) (hsame i hi j hj) heq)
    have hid := SymbolTable.ofInstruments_of_id_ne hids hseparates
      fun j hj hlisted heq => hskipped (hsame i hi j hj heq ▸ hlisted)
    exact ⟨hname, hid, htick⟩

/-- A list of two instruments, the second with a base currency that would end inside the first
character of its id. -/
def shortList : String :=
  "[\x7b\"id\":\"ETHBTC\",\"baseCurrency\":\"ETH\",\"tickSize\":\"0.01\"\x7d," ++
    "\x7b\"id\":\"€BTC\",\"baseCurrency\":\"EU\",\"tickSize\":\"1\"\x7d]"

/-- A one at the last of so many decimal places. -/
def lastPlace (places : Nat) : Decimal := (Decimal.ofParts? 1 places).getD .zero

/-- The instruments of the list. -/
def shortInstruments : List Instrument :=
  [{ id := "ETHBTC", base := "ETH", tick := lastPlace 2 },
    { id := "€BTC", base := "EU", tick := lastPlace 0 }]

/-- The first instrument is found by both of its names, and of the second nothing is known. -/
theorem instruments_known_cut :
    ∃ t, SymbolTable.ofPayload shortList "-" = .ok t ∧ t.size = 1 ∧
      t.exchangeSymbol "ETH-BTC" = .ok "ETHBTC" ∧ t.standardSymbol "ETHBTC" = .ok "ETH-BTC" ∧
      t.standardSymbol "€BTC" = .error (.unknownSymbol "€BTC") := by
  have hread : (Json.ofText? shortList).bind (Json.list? Instrument.ofJson?) =
      some shortInstruments := by cbv
  have hfree : ∀ i ∈ shortInstruments, ∀ c ∈ "-".toList, c ∉ i.id.toList := by
    simp [shortInstruments]
  obtain ⟨t, ht, hlisted, hsize, -, -, hskipped⟩ :=
    instruments_known hread (by decide) (Or.inr hfree)
  obtain ⟨hfirst, -⟩ := List.forall_mem_cons.mp hlisted
  obtain ⟨hexchange, hstandard, -⟩ :=
    hfirst.2 "ETH" "BTC" ⟨by decide, by decide, by decide, by decide⟩
  obtain ⟨-, hunknown, -⟩ :=
    hskipped { id := "€BTC", base := "EU", tick := lastPlace 0 } (by decide) (by decide)
  exact ⟨t, ht, hsize, hexchange, hstandard, hunknown⟩

end Feed

end MarketFeed
