/-
# Where a file's records end

What a file holds at an offset, and where its records end, can be said without reading it:

| notion | meaning |
| --- | --- |
| `wordAt order bytes n` | the word at offset n |
| `HasHeader kind order v stamp bytes` | the magic, the version and the stamp stand where they should |
| `RecordsUpTo order bytes records n` | these are the complete records between the header and n |
| `ZeroTagAt order bytes n` | a zero tag stands at n, behind complete records |
| `MayEndAt order bytes n` | n lies right behind a record, or behind a zero tag |

All of these only look at the bytes before the end of what they speak of, so files that begin alike
agree on them (`RecordsUpTo.congr`). `Record.all` finds the same records: all that end at any such
offset come first (`RecordsUpTo.all_eq`), and where it stops without a shortage the file ends, or a
zero tag stands (`Record.exists_stop`).
-/
import ArcCoverage.Format.Record
import ArcCoverage.Format.Version
import ArcCoverage.Proofs.Profile.Assembly

namespace ArcCoverage

/-- The word at an offset of a file; nothing if the file ends within it. -/
def wordAt (order : ByteOrder) (bytes : List UInt8) (offset : Nat) : Option UInt32 :=
  match (bytes.drop offset).take 4 with
  | [a, b, c, d] => some (order.decode a b c d)
  | _ => none

/-- **The header of a file:** the magic of its kind, a version whose layout is known, and a stamp. -/
structure HasHeader (kind : FileKind) (order : ByteOrder) (v : Version) (stamp : UInt32)
    (bytes : List UInt8) : Prop where
  magic : sniff bytes = some (kind, order)
  version : (wordAt order bytes 4).map Version.ofWord = some v
  supported : v.isSupported
  stamp : wordAt order bytes 8 = some stamp

/-- **The complete records of a file up to an offset.** The first begins behind the twelve bytes of
the header, each of the others where the one before it ends, and no tag is zero. -/
inductive RecordsUpTo (order : ByteOrder) (bytes : List UInt8) : List Record → Nat → Prop where
  | header (h : 12 ≤ bytes.length) : RecordsUpTo order bytes [] 12
  | record {records : List Record} {n : Nat} {tag words : UInt32}
      (before : RecordsUpTo order bytes records n)
      (htag : wordAt order bytes n = some tag) (hne : tag ≠ 0)
      (hwords : wordAt order bytes (n + 4) = some words)
      (hfits : n + 8 + 4 * words.toNat ≤ bytes.length) :
      RecordsUpTo order bytes
        (records ++ [{
          offset := n
          tag
          words
          payload := ⟨order, n + 8, (bytes.drop (n + 8)).take (4 * words.toNat)⟩ }])
        (n + 8 + 4 * words.toNat)

/-- A zero tag behind complete records. -/
def ZeroTagAt (order : ByteOrder) (bytes : List UInt8) (n : Nat) : Prop :=
  (∃ records, RecordsUpTo order bytes records n) ∧ wordAt order bytes n = some 0

/-- **Where a file may end:** behind a complete record, or anywhere behind a zero tag. -/
def MayEndAt (order : ByteOrder) (bytes : List UInt8) (n : Nat) : Prop :=
  (∃ records, RecordsUpTo order bytes records n) ∨ ∃ stop, ZeroTagAt order bytes stop ∧ stop + 4 ≤ n

variable {order : ByteOrder} {bytes bytes' : List UInt8} {records : List Record} {m n : Nat}

/-! ## Files that begin alike -/

/-- Pieces of files that begin alike. -/
theorem slice_congr {α : Type} {as bs : List α} (h : as.take m = bs.take m) {k : Nat}
    (hm : n + k ≤ m) : (as.drop n).take k = (bs.drop n).take k := by
  have hslice (l : List α) : (l.drop n).take k = ((l.take m).drop n).take k := by
    rw [List.drop_take, List.take_take, Nat.min_eq_left (Nat.le_sub_of_add_le' hm)]
  rw [hslice as, hslice bs, h]

/-- What is left of a file begins as the file does. -/
theorem take_agrees {α : Type} (as : List α) (n : Nat) : as.take n = (as.take n).take n := by
  rw [List.take_take, Nat.min_self]

/-- The bytes before an offset are there in both files or in neither. -/
theorem le_length_congr {α : Type} {as bs : List α} (h : as.take m = bs.take m) (hm : n ≤ m)
    (hn : n ≤ as.length) : n ≤ bs.length := by
  have hlength := congrArg List.length h
  rw [List.length_take, List.length_take] at hlength
  omega

theorem wordAt_congr (h : bytes.take m = bytes'.take m) (hm : n + 4 ≤ m) :
    wordAt order bytes n = wordAt order bytes' n := by
  rw [wordAt, wordAt, slice_congr h hm]

theorem HasHeader.congr {kind : FileKind} {v : Version} {stamp : UInt32}
    (h : HasHeader kind order v stamp bytes) (hagree : bytes.take m = bytes'.take m)
    (hm : 12 ≤ m) : HasHeader kind order v stamp bytes' where
  magic := by
    have hstart : bytes.take 4 = bytes'.take 4 := slice_congr (n := 0) hagree (by omega)
    rw [← h.magic, sniff, sniff, hstart]
  version := by rw [← wordAt_congr hagree (by omega), h.version]
  supported := h.supported
  stamp := by rw [← wordAt_congr hagree (by omega), h.stamp]

/-- A word takes four bytes. -/
theorem le_length_of_wordAt {w : UInt32} (h : wordAt order bytes n = some w) :
    n + 4 ≤ bytes.length := by
  unfold wordAt at h
  split at h
  · next hquad =>
    have hlength := congrArg List.length hquad
    rw [List.length_take, List.length_drop] at hlength
    simp only [List.length_cons, List.length_nil] at hlength
    omega
  · cases h

theorem HasHeader.twelve_le_length {kind : FileKind} {v : Version} {stamp : UInt32}
    (h : HasHeader kind order v stamp bytes) : 12 ≤ bytes.length :=
  le_length_of_wordAt h.stamp

theorem RecordsUpTo.le_length (h : RecordsUpTo order bytes records n) : n ≤ bytes.length := by
  cases h with
  | header h => exact h
  | record _ _ _ _ hfits => exact hfits

theorem RecordsUpTo.twelve_le (h : RecordsUpTo order bytes records n) : 12 ≤ n := by
  induction h with
  | header => exact Nat.le_refl 12
  | record _ _ _ _ _ ih => omega

/-- **Files that begin alike have the same records there.** -/
theorem RecordsUpTo.congr (h : RecordsUpTo order bytes records n)
    (hagree : bytes.take m = bytes'.take m) (hm : n ≤ m) : RecordsUpTo order bytes' records n := by
  induction h with
  | header h => exact .header (le_length_congr hagree hm h)
  | @record records n tag words _ htag hne hwords hfits ih =>
    rw [slice_congr hagree hm]
    refine .record (ih (by omega)) ?_ hne ?_ (le_length_congr hagree hm hfits)
    · rw [← wordAt_congr hagree (by omega), htag]
    · rw [← wordAt_congr hagree (by omega), hwords]

theorem ZeroTagAt.congr (h : ZeroTagAt order bytes n) (hagree : bytes.take m = bytes'.take m)
    (hm : n + 4 ≤ m) : ZeroTagAt order bytes' n := by
  obtain ⟨⟨records, hrecords⟩, hzero⟩ := h
  exact ⟨⟨records, hrecords.congr hagree (by omega)⟩, (wordAt_congr hagree hm).symm.trans hzero⟩

theorem MayEndAt.twelve_le (h : MayEndAt order bytes n) : 12 ≤ n := by
  rcases h with ⟨records, hrecords⟩ | ⟨stop, ⟨⟨records, hrecords⟩, -⟩, hstop⟩
  · exact hrecords.twelve_le
  · have := hrecords.twelve_le
    omega

/-! ## Reading at an offset -/

/-- The cursor at an offset of a file. -/
def Cursor.ofFile (order : ByteOrder) (bytes : List UInt8) (n : Nat) : Cursor :=
  ⟨order, n, bytes.drop n⟩

theorem Cursor.advance_ofFile (order : ByteOrder) (bytes : List UInt8) (n k : Nat) :
    (ofFile order bytes n).advance k = ofFile order bytes (n + k) := by
  rw [advance, ofFile, ofFile, List.drop_drop]

theorem Cursor.length_rest_ofFile : (ofFile order bytes n).rest.length = bytes.length - n :=
  List.length_drop

theorem Cursor.atEnd_ofFile : (ofFile order bytes n).atEnd = decide (bytes.length ≤ n) := by
  rw [atEnd, ofFile, Bool.eq_iff_iff, List.isEmpty_iff, List.drop_eq_nil_iff, decide_eq_true_iff]

/-- Where four bytes are left there is a word. -/
theorem wordAt_of_le_length (h : n + 4 ≤ bytes.length) :
    wordAt order bytes n = some (Read.wordOf order ((bytes.drop n).take 4)) := by
  have hlength : ((bytes.drop n).take 4).length = 4 := by
    rw [List.length_take, List.length_drop]
    omega
  rw [wordAt]
  match (bytes.drop n).take 4, hlength with
  | [a, b, c, d], _ => rfl

namespace Read

variable {c : Cursor}

theorem bytes_eq_ok {k : Nat} {slice : List UInt8} (hn : n ≤ bytes.length) :
    Read.bytes k (.ofFile order bytes n) = .ok slice c ↔
      n + k ≤ bytes.length ∧ slice = (bytes.drop n).take k ∧ c = .ofFile order bytes (n + k) := by
  have hlength : k ≤ (Cursor.ofFile order bytes n).rest.length ↔ n + k ≤ bytes.length := by
    rw [Cursor.length_rest_ofFile]
    omega
  rw [Read.bytes, Cursor.advance_ofFile]
  split_ifs with h
  · rw [EStateM.Result.ok.injEq]
    constructor
    · rintro ⟨rfl, rfl⟩
      exact ⟨hlength.1 h, rfl, rfl⟩
    · rintro ⟨-, rfl, rfl⟩
      exact ⟨rfl, rfl⟩
  · exact iff_of_false (fun hok => by cases hok) fun hfits => h (hlength.2 hfits.1)

/-- **A word is read where there is one.** -/
theorem word_eq_ok {w : UInt32} (hn : n ≤ bytes.length) :
    word (.ofFile order bytes n) = .ok w c ↔
      wordAt order bytes n = some w ∧ c = .ofFile order bytes (n + 4) := by
  constructor
  · intro h
    unfold word at h
    cases hread : Read.bytes 4 (.ofFile order bytes n) with
    | ok quad c' =>
      rw [hread] at h
      obtain ⟨hfits, rfl, rfl⟩ := (bytes_eq_ok hn).1 hread
      obtain ⟨rfl, rfl⟩ := EStateM.Result.ok.inj h
      exact ⟨wordAt_of_le_length hfits, rfl⟩
    | error e c' =>
      rw [hread] at h
      cases h
  · rintro ⟨hw, rfl⟩
    have hfits := le_length_of_wordAt hw
    rw [wordAt_of_le_length hfits] at hw
    obtain rfl := Option.some.inj hw
    rw [word, (bytes_eq_ok hn).2 ⟨hfits, rfl, rfl⟩]
    rfl

theorem record_eq_ok {words : UInt32} {payload : Cursor} (hn : n ≤ bytes.length) :
    record words (.ofFile order bytes n) = .ok payload c ↔
      n + 4 * words.toNat ≤ bytes.length ∧
        payload = ⟨order, n, (bytes.drop n).take (4 * words.toNat)⟩ ∧
        c = .ofFile order bytes (n + 4 * words.toNat) := by
  rw [record, Nat.mul_comm]
  cases hread : Read.bytes (4 * words.toNat) (.ofFile order bytes n) with
  | ok slice c' =>
    obtain ⟨hfits, rfl, rfl⟩ := (bytes_eq_ok hn).1 hread
    rw [EStateM.Result.ok.injEq]
    constructor
    · rintro ⟨rfl, rfl⟩
      exact ⟨hfits, rfl, rfl⟩
    · rintro ⟨-, rfl, rfl⟩
      exact ⟨rfl, rfl⟩
  | error e c' =>
    constructor
    · intro hok
      cases hok
    · rintro ⟨hfits, -, -⟩
      rw [(bytes_eq_ok hn).2 ⟨hfits, rfl, rfl⟩] at hread
      cases hread

end Read

namespace Record

/-- **A record is read where there is one:** a tag, a length and as many words. -/
theorem next_eq_some {r : Record} {c : Cursor} (hn : n ≤ bytes.length) :
    next (.ofFile order bytes n) = .ok (some r) c ↔
      ∃ tag words, wordAt order bytes n = some tag ∧ tag ≠ 0 ∧
        wordAt order bytes (n + 4) = some words ∧ n + 8 + 4 * words.toNat ≤ bytes.length ∧
        r = {
          offset := n
          tag
          words
          payload := ⟨order, n + 8, (bytes.drop (n + 8)).take (4 * words.toNat)⟩ } ∧
        c = .ofFile order bytes (n + 8 + 4 * words.toNat) := by
  constructor
  · intro h
    obtain ⟨tag, c₁, hread, h⟩ := EStateM.bind_eq_ok.1 h
    obtain ⟨htag, rfl⟩ := (Read.word_eq_ok hn).1 hread
    split_ifs at h with hzero
    · cases (EStateM.pure_eq_ok.1 h).1
    obtain ⟨words, c₂, hread, h⟩ := EStateM.bind_eq_ok.1 h
    obtain ⟨hwords, rfl⟩ := (Read.word_eq_ok (le_length_of_wordAt htag)).1 hread
    obtain ⟨payload, c₃, hread, h⟩ := EStateM.bind_eq_ok.1 h
    obtain ⟨hfits, rfl, rfl⟩ := (Read.record_eq_ok (le_length_of_wordAt hwords)).1 hread
    obtain ⟨hr, rfl⟩ := EStateM.pure_eq_ok.1 h
    exact ⟨tag, words, htag, hzero, hwords, hfits, (Option.some.inj hr).symm, rfl⟩
  · rintro ⟨tag, words, htag, hne, hwords, hfits, rfl, rfl⟩
    refine EStateM.bind_eq_ok.2 ⟨tag, _, (Read.word_eq_ok hn).2 ⟨htag, rfl⟩, ?_⟩
    rw [if_neg hne]
    refine EStateM.bind_eq_ok.2
      ⟨words, _, (Read.word_eq_ok (le_length_of_wordAt htag)).2 ⟨hwords, rfl⟩, ?_⟩
    refine EStateM.bind_eq_ok.2
      ⟨_, _, (Read.record_eq_ok (le_length_of_wordAt hwords)).2 ⟨hfits, rfl, rfl⟩, ?_⟩
    exact EStateM.pure_eq_ok.2 ⟨rfl, rfl⟩

theorem next_eq_none {c : Cursor} (hn : n ≤ bytes.length) :
    next (.ofFile order bytes n) = .ok none c ↔
      wordAt order bytes n = some 0 ∧ c = .ofFile order bytes (n + 4) := by
  constructor
  · intro h
    obtain ⟨tag, c₁, hread, h⟩ := EStateM.bind_eq_ok.1 h
    obtain ⟨htag, rfl⟩ := (Read.word_eq_ok hn).1 hread
    split_ifs at h with hzero
    · obtain ⟨-, rfl⟩ := EStateM.pure_eq_ok.1 h
      exact ⟨hzero ▸ htag, rfl⟩
    · obtain ⟨words, c₂, -, h⟩ := EStateM.bind_eq_ok.1 h
      obtain ⟨payload, c₃, -, h⟩ := EStateM.bind_eq_ok.1 h
      cases (EStateM.pure_eq_ok.1 h).1
  · rintro ⟨hzero, rfl⟩
    refine EStateM.bind_eq_ok.2 ⟨0, _, (Read.word_eq_ok hn).2 ⟨hzero, rfl⟩, ?_⟩
    exact EStateM.pure_eq_ok.2 ⟨rfl, rfl⟩

/-! ## All records -/

/-- **Enough fuel is enough.** Every record takes eight bytes, so fuel for each byte that is left is
never used up. -/
theorem collect_ofFile {fuel fuel' : Nat} (hn : n ≤ bytes.length) (h : bytes.length ≤ n + fuel)
    (h' : bytes.length ≤ n + fuel') :
    collect fuel (.ofFile order bytes n) = collect fuel' (.ofFile order bytes n) := by
  induction fuel generalizing n fuel' with
  | zero =>
    cases fuel' with
    | zero => rfl
    | succ fuel' =>
      have hend : (Cursor.ofFile order bytes n).atEnd := by
        rw [Cursor.atEnd_ofFile, decide_eq_true_iff]
        exact h
      rw [collect, collect, if_pos hend]
  | succ fuel ih =>
    cases fuel' with
    | zero =>
      have hend : (Cursor.ofFile order bytes n).atEnd := by
        rw [Cursor.atEnd_ofFile, decide_eq_true_iff]
        exact h'
      rw [collect, collect, if_pos hend]
    | succ fuel' =>
      rw [collect, collect]
      cases hnext : next (.ofFile order bytes n) with
      | error e c => rfl
      | ok found c =>
        cases found with
        | none => rfl
        | some r =>
          obtain ⟨tag, words, -, -, -, hfits, -, rfl⟩ := (next_eq_some hn).1 hnext
          have hrest : collect fuel (.ofFile order bytes (n + 8 + 4 * words.toNat)) =
              collect fuel' (.ofFile order bytes (n + 8 + 4 * words.toNat)) :=
            ih hfits (by omega) (by omega)
          simp only [hrest]

/-- Nothing follows the end of a file. -/
theorem all_of_length_le (h : bytes.length ≤ n) : all (.ofFile order bytes n) = ⟨[], none⟩ := by
  have hrest : bytes.drop n = [] := List.drop_eq_nil_iff.2 h
  rw [all, Cursor.ofFile, hrest]
  rfl

/-- What follows an offset within a file, by the next record there. -/
theorem all_of_lt (h : n < bytes.length) :
    all (.ofFile order bytes n) =
      match next (.ofFile order bytes n) with
      | .ok none _ => ⟨[], none⟩
      | .ok (some r) c => (all c).cons r
      | .error e _ => ⟨[], some e⟩ := by
  have hmore : (Cursor.ofFile order bytes n).atEnd = false := by
    rw [Cursor.atEnd_ofFile, decide_eq_false_iff_not]
    omega
  rw [all, Cursor.length_rest_ofFile]
  obtain ⟨fuel, hfuel⟩ : ∃ fuel, bytes.length - n = fuel + 1 := ⟨bytes.length - n - 1, by omega⟩
  rw [hfuel, collect, hmore]
  cases hnext : next (.ofFile order bytes n) with
  | error e c => rfl
  | ok found c =>
    cases found with
    | none => rfl
    | some r =>
      obtain ⟨tag, words, -, -, -, hfits, -, rfl⟩ := (next_eq_some (Nat.le_of_lt h)).1 hnext
      have hrest : collect fuel (.ofFile order bytes (n + 8 + 4 * words.toNat)) =
          all (.ofFile order bytes (n + 8 + 4 * words.toNat)) := by
        rw [all, Cursor.length_rest_ofFile]
        exact collect_ofFile hfits (by omega) (by omega)
      simp only [hrest, Bool.false_eq_true, if_false]

end Record

/-- **The records up to an offset come first.** -/
theorem RecordsUpTo.all_eq (h : RecordsUpTo order bytes records n) :
    Record.all (.ofFile order bytes 12) =
      { Record.all (.ofFile order bytes n) with
        records := records ++ (Record.all (.ofFile order bytes n)).records } := by
  induction h with
  | header => rfl
  | @record records n tag words before htag hne hwords hfits ih =>
    have hnext := (Record.next_eq_some before.le_length).2
      ⟨tag, words, htag, hne, hwords, hfits, rfl, rfl⟩
    rw [ih, Record.all_of_lt (by omega), hnext]
    simp only [Framing.cons, List.append_assoc, List.singleton_append]

/-- Where the file ends behind a record, these were all. -/
theorem RecordsUpTo.all_eq_of_length (h : RecordsUpTo order bytes records n)
    (hn : bytes.length = n) : Record.all (.ofFile order bytes 12) = ⟨records, none⟩ := by
  rw [h.all_eq, Record.all_of_length_le (Nat.le_of_eq hn), List.append_nil]

/-- Where a zero tag stands behind a record, these were all. -/
theorem RecordsUpTo.all_eq_of_zero (h : RecordsUpTo order bytes records n)
    (hzero : wordAt order bytes n = some 0) :
    Record.all (.ofFile order bytes 12) = ⟨records, none⟩ := by
  have hlt := le_length_of_wordAt hzero
  have hnext := (Record.next_eq_none h.le_length).2 ⟨hzero, rfl⟩
  rw [h.all_eq, Record.all_of_lt (by omega), hnext]
  simp only [List.append_nil]

/-- **A file that is cut behind a record** has the records before the cut. -/
theorem RecordsUpTo.all_take (h : RecordsUpTo order bytes records n) :
    Record.all (.ofFile order (bytes.take n) 12) = ⟨records, none⟩ :=
  (h.congr (take_agrees bytes n) (Nat.le_refl n)).all_eq_of_length
    (List.length_take_of_le h.le_length)

/-- **Nothing behind a zero tag is looked at.** -/
theorem ZeroTagAt.all_congr (h : ZeroTagAt order bytes n) (hagree : bytes.take m = bytes'.take m)
    (hm : n + 4 ≤ m) :
    Record.all (.ofFile order bytes 12) = Record.all (.ofFile order bytes' 12) := by
  obtain ⟨⟨records, hrecords⟩, hzero⟩ := h
  rw [hrecords.all_eq_of_zero hzero, (hrecords.congr hagree (by omega)).all_eq_of_zero
    ((wordAt_congr hagree hm).symm.trans hzero)]

/-- **Where records stop.** Behind the header of any file there are some complete records, and if
nothing was short behind them, the file ends there or a zero tag follows. -/
theorem Record.exists_stop (h : RecordsUpTo order bytes records n) :
    ∃ last, RecordsUpTo order bytes (Record.all (.ofFile order bytes 12)).records last ∧
      ((Record.all (.ofFile order bytes 12)).shortage = none →
        last = bytes.length ∨ wordAt order bytes last = some 0) := by
  induction hgap : bytes.length - n using Nat.strongRecOn generalizing records n with
  | ind gap ih =>
  have hle := h.le_length
  have hall := h.all_eq
  rcases Nat.lt_or_ge n bytes.length with hlt | hge
  · rw [all_of_lt hlt] at hall
    cases hnext : next (.ofFile order bytes n) with
    | error e c =>
      rw [hnext, List.append_nil] at hall
      rw [hall]
      exact ⟨n, h, fun hshort => by cases hshort⟩
    | ok found c =>
      cases found with
      | none =>
        rw [hnext, List.append_nil] at hall
        rw [hall]
        exact ⟨n, h, fun _ => .inr ((next_eq_none hle).1 hnext).1⟩
      | some r =>
        obtain ⟨tag, words, htag, hne, hwords, hfits, -, -⟩ := (next_eq_some hle).1 hnext
        exact ih _ (by omega) (h.record htag hne hwords hfits) rfl
  · obtain rfl := Nat.le_antisymm hle hge
    rw [h.all_eq_of_length rfl]
    exact ⟨bytes.length, h, fun _ => .inl rfl⟩

/-- **A cut is seen** unless it is behind a record or a zero tag. -/
theorem mayEndAt_of_not_short (h12 : 12 ≤ n) (hle : n ≤ bytes.length)
    (hshort : (Record.all (.ofFile order (bytes.take n) 12)).shortage = none) :
    MayEndAt order bytes n := by
  have hlength : (bytes.take n).length = n := List.length_take_of_le hle
  have hagree := take_agrees bytes n
  have hheader : RecordsUpTo order (bytes.take n) [] 12 := .header (hlength.symm ▸ h12)
  obtain ⟨last, hlast, hstop⟩ := Record.exists_stop hheader
  have hlastLe : last ≤ n := hlength ▸ hlast.le_length
  have hbefore := hlast.congr hagree.symm hlastLe
  rcases hstop hshort with heq | hzero
  · rw [heq, hlength] at hbefore
    exact .inl ⟨_, hbefore⟩
  · have hword : last + 4 ≤ n := hlength ▸ le_length_of_wordAt hzero
    exact .inr ⟨last, ZeroTagAt.congr ⟨⟨_, hlast⟩, hzero⟩ hagree.symm hword, hword⟩

end ArcCoverage
