/-
# Reading what a draft wrote

`Draft.encode` and the readers are separate definitions that have to agree on lengths, padding and
byte order. Each layer of the format has one lemma that says so:

| layer | lemma |
| --- | --- |
| a word | `Read.word_encode` |
| a text, up to its first zero byte | `Read.string_encode_beforeZero` |
| a text without the character zero | `Read.string_encode` |
| a record | `DraftRecord.next_encode` |
| the header of a file | `Draft.hasHeader_encode` |
| all records of a file | `Draft.all_behindHeader` |

A record's length is a word, so the lemmas ask for records of fewer than 2³² words
(`UInt32.size`). `Draft.Runs` says where steps over the records of a draft lead, and
`Draft.Runs.push` adds one record to them: the writer's operations are followed one at a time.
-/
import ArcCoverage.Format.Draft
import ArcCoverage.Profile.Basic
import ArcCoverage.Proofs.Format.Boundaries
import ArcCoverage.Proofs.Text.Utf8

namespace ArcCoverage

/-- A read goes on behind another one. Where the cursor ends is left open. -/
theorem EStateM.bind_leads {ε σ α β : Type} {x : EStateM ε σ α} {f : α → EStateM ε σ β} {s s' : σ}
    {a : α} {b : β} (hx : x s = .ok a s') (hf : ∃ t, f a s' = .ok b t) :
    ∃ t, (x >>= f) s = .ok b t := by
  obtain ⟨t, hf⟩ := hf
  exact ⟨t, EStateM.bind_eq_ok.2 ⟨a, s', hx, hf⟩⟩

/-- A word is found behind the bytes in front of it. -/
theorem wordAt_encode {order : ByteOrder} {front : List UInt8} {n : Nat} (h : front.length = n)
    (w : UInt32) (rest : List UInt8) :
    wordAt order (front ++ (order.encode w ++ rest)) n = some w := by
  obtain ⟨a, b, c, d, hbytes, hword⟩ := order.decode_encode w
  rw [wordAt, List.drop_left' h, hbytes, ← hword]
  rfl

/-! ## Items -/

/-- The words of a text hold its bytes, and a zero byte behind them unless there are none. -/
theorem Item.length_le_textWords (bytes : List UInt8) :
    bytes.length ≤ 4 * textWords bytes ∧ (bytes ≠ [] → bytes.length < 4 * textWords bytes) := by
  cases bytes with
  | nil => simp [textWords]
  | cons b bytes =>
    rw [textWords, if_neg (by simp)]
    constructor
    · omega
    · intro
      omega

/-- **An item takes as many words as it says.** -/
theorem Item.length_encode (order : ByteOrder) (item : Item) :
    (item.encode order).length = 4 * item.words := by
  cases item with
  | word w => rw [encode, words, order.length_encode]
  | text s =>
    have hle := (length_le_textWords (Utf8.encode s)).1
    simp only [encode, words, List.length_append, order.length_encode, List.length_replicate]
    omega

/-- What is read of a text: what stands before its first zero byte. -/
def Item.beforeZero (s : String) : String := Utf8.decode ((Utf8.encode s).takeWhile (· != 0))

namespace Read

variable {order : ByteOrder} {position : Nat}

/-- As many bytes as there are in front of the others. -/
theorem bytes_append {n : Nat} {front : List UInt8} (h : front.length = n) (rest : List UInt8) :
    bytes n ⟨order, position, front ++ rest⟩ = .ok front ⟨order, position + n, rest⟩ := by
  subst h
  simp [bytes, Cursor.advance]

/-- Zero bytes behind a text do not change what stands before its first zero byte. -/
theorem takeWhile_append_zeros (text : List UInt8) (n : Nat) :
    (text ++ List.replicate n 0).takeWhile (· != 0) = text.takeWhile (· != 0) := by
  induction text with
  | nil => cases n <;> simp [List.replicate_succ]
  | cons b text ih => rw [List.cons_append, List.takeWhile_cons, List.takeWhile_cons, ih]

/-- All of a text stands before its first zero byte if it has none. -/
theorem takeWhile_of_zero_notMem {text : List UInt8} (h : (0 : UInt8) ∉ text) :
    text.takeWhile (· != 0) = text := by
  have htext : ∀ b ∈ text, (b != 0) = true := fun b hb => by
    rw [bne_iff_ne]
    rintro rfl
    exact h hb
  have hall := @List.takeWhile_append_of_pos _ (· != 0) text [] htext
  rwa [List.append_nil, List.takeWhile_nil, List.append_nil] at hall

/-- What stands before the first zero byte, if it is padded by zero bytes. -/
theorem takeWhile_padded {text : List UInt8} (h : (0 : UInt8) ∉ text) (n : Nat) :
    (text ++ List.replicate n 0).takeWhile (· != 0) = text := by
  rw [takeWhile_append_zeros, takeWhile_of_zero_notMem h]

/-- **A text is read up to its first zero byte** where it was written. -/
theorem string_encode_beforeZero {s : String} (hwords : (Item.text s).words < UInt32.size)
    (rest : List UInt8) :
    string ⟨order, position, (Item.text s).encode order ++ rest⟩ =
      .ok (Item.beforeZero s) ⟨order, position + 4 * (Item.text s).words, rest⟩ := by
  generalize hn : Item.textWords (Utf8.encode s) = n
  have hle := (Item.length_le_textWords (Utf8.encode s)).1
  have hsize : (Item.text s).words = 1 + n := by rw [Item.words, hn]
  rw [hn] at hle
  rw [hsize] at hwords ⊢
  have hlength : (UInt32.ofNat n).toNat = n := by
    exact UInt32.toNat_ofNat_of_lt' (by omega)
  have hpadded : (Utf8.encode s ++ List.replicate (n * 4 - (Utf8.encode s).length) 0).length =
      (UInt32.ofNat n).toNat * 4 := by
    rw [List.length_append, List.length_replicate, hlength]
    omega
  have hposition : position + 4 + (UInt32.ofNat n).toNat * 4 = position + 4 * (1 + n) := by
    rw [hlength]
    omega
  simp only [Item.encode, hn, List.append_assoc]
  refine EStateM.bind_eq_ok.2 ⟨_, _, word_encode .., ?_⟩
  rw [← List.append_assoc]
  refine EStateM.bind_eq_ok.2 ⟨_, _, bytes_append hpadded rest, ?_⟩
  refine EStateM.pure_eq_ok.2 ⟨?_, ?_⟩
  · rw [takeWhile_append_zeros, Item.beforeZero]
  · rw [hposition]

/-- **A text is read back** where it was written. -/
theorem string_encode {s : String} (hzero : '\x00' ∉ s.toList)
    (hwords : (Item.text s).words < UInt32.size) (rest : List UInt8) :
    string ⟨order, position, (Item.text s).encode order ++ rest⟩ =
      .ok s ⟨order, position + 4 * (Item.text s).words, rest⟩ := by
  rw [string_encode_beforeZero hwords, Item.beforeZero,
    takeWhile_of_zero_notMem (Utf8.zero_notMem_encode hzero), Utf8.decode_encode]

variable {items : List Item}

/-- A word in front of other items. -/
theorem word_item (w : UInt32) :
    word ⟨order, position, (.word w :: items).flatMap (Item.encode order)⟩ =
      .ok w ⟨order, position + 4, items.flatMap (Item.encode order)⟩ :=
  word_encode order w position _

/-- A text in front of other items. -/
theorem string_item {s : String} (hzero : '\x00' ∉ s.toList)
    (hwords : (Item.text s).words < UInt32.size) :
    string ⟨order, position, (.text s :: items).flatMap (Item.encode order)⟩ =
      .ok s ⟨order, position + 4 * (Item.text s).words, items.flatMap (Item.encode order)⟩ :=
  string_encode hzero hwords _

end Read

/-! ## Records -/

namespace DraftRecord

/-- The record that is read back where this one was written. -/
def framed (order : ByteOrder) (position : Nat) (r : DraftRecord) : Record where
  offset := position
  tag := r.tag
  words := UInt32.ofNat r.words
  payload := ⟨order, position + 8, r.payload.flatMap (Item.encode order)⟩

/-- The records that are read back where some were written. -/
def framedAll (order : ByteOrder) : Nat → List DraftRecord → List Record
  | _, [] => []
  | position, r :: rs => r.framed order position :: framedAll order (position + (8 + 4 * r.words)) rs

variable {order : ByteOrder} {r : DraftRecord} {rs : List DraftRecord} {position : Nat}

theorem length_payload (order : ByteOrder) (r : DraftRecord) :
    (r.payload.flatMap (Item.encode order)).length = 4 * r.words := by
  rw [words]
  induction r.payload with
  | nil => rfl
  | cons item items ih =>
    rw [List.flatMap_cons, List.length_append, Item.length_encode, ih, List.foldr_cons]
    omega

/-- An item is no longer than the record that it stands in. -/
theorem words_le_of_mem {item : Item} (h : item ∈ r.payload) : item.words ≤ r.words := by
  rw [words]
  revert h
  induction r.payload with
  | nil => exact fun h => absurd h List.not_mem_nil
  | cons first items ih =>
    intro h
    rw [List.foldr_cons]
    rcases List.mem_cons.1 h with rfl | h
    · omega
    · have := ih h
      omega

/-- Every item takes a word. -/
theorem length_le_words (r : DraftRecord) : r.payload.length ≤ r.words := by
  rw [words]
  induction r.payload with
  | nil => exact Nat.le_refl _
  | cons item items ih =>
    have hword : 1 ≤ item.words := by
      cases item with
      | word w => exact Nat.le_refl _
      | text s => exact Nat.le_add_right ..
    rw [List.length_cons, List.foldr_cons]
    omega

theorem length_encode (order : ByteOrder) (r : DraftRecord) :
    (r.encode order).length = 8 + 4 * r.words := by
  simp only [encode, List.length_append, order.length_encode, length_payload]

/-- **A record is read back** where it was written, unless its tag is zero. -/
theorem next_encode (order : ByteOrder) (position : Nat) (htag : r.tag ≠ 0)
    (hwords : r.words < UInt32.size) (rest : List UInt8) :
    Record.next ⟨order, position, r.encode order ++ rest⟩ =
      .ok (some (r.framed order position)) ⟨order, position + (8 + 4 * r.words), rest⟩ := by
  have hlength : (UInt32.ofNat r.words).toNat = r.words := by
    exact UInt32.toNat_ofNat_of_lt' (by omega)
  have hpayload : Read.record (UInt32.ofNat r.words)
      ⟨order, position + 4 + 4, r.payload.flatMap (Item.encode order) ++ rest⟩ =
      .ok ⟨order, position + 8, r.payload.flatMap (Item.encode order)⟩
        ⟨order, position + (8 + 4 * r.words), rest⟩ := by
    rw [Read.record, hlength, Read.bytes_append (by rw [length_payload]; omega) rest]
    simp only [EStateM.Result.ok.injEq, Cursor.mk.injEq, true_and, and_true]
    omega
  simp only [encode, List.append_assoc, Record.next]
  refine EStateM.bind_eq_ok.2 ⟨_, _, Read.word_encode .., ?_⟩
  rw [if_neg htag]
  refine EStateM.bind_eq_ok.2 ⟨_, _, Read.word_encode .., ?_⟩
  refine EStateM.bind_eq_ok.2 ⟨_, _, hpayload, ?_⟩
  exact EStateM.pure_eq_ok.2 ⟨rfl, rfl⟩

/-- Records are read back in order, if the fuel reaches for them. -/
theorem collect_encode (order : ByteOrder) (position : Nat) (htags : ∀ r ∈ rs, r.tag ≠ 0)
    (hwords : ∀ r ∈ rs, r.words < UInt32.size) {fuel : Nat} (hfuel : rs.length ≤ fuel) :
    Record.collect fuel ⟨order, position, rs.flatMap (encode order)⟩ =
      ⟨framedAll order position rs, none⟩ := by
  induction rs generalizing position fuel with
  | nil => cases fuel <;> rfl
  | cons r rs ih =>
    obtain ⟨fuel, rfl⟩ : ∃ n, fuel = n + 1 := ⟨fuel - 1, by simp at hfuel; omega⟩
    have hnext := next_encode order position (htags r List.mem_cons_self)
      (hwords r List.mem_cons_self) (rs.flatMap (encode order))
    have hmore : Cursor.atEnd
        ⟨order, position, r.encode order ++ rs.flatMap (encode order)⟩ = false := by
      have hlength := r.length_encode order
      cases hbytes : r.encode order with
      | nil =>
        rw [hbytes, List.length_nil] at hlength
        omega
      | cons b bytes => rfl
    have hrest := ih (position + (8 + 4 * r.words))
      (fun s hs => htags s (List.mem_cons_of_mem _ hs))
      (fun s hs => hwords s (List.mem_cons_of_mem _ hs)) (by simpa using hfuel)
    rw [List.flatMap_cons, Record.collect, hmore, hnext]
    simp only [Bool.false_eq_true, if_false, hrest]
    rfl

theorem length_le_flatMap (order : ByteOrder) (rs : List DraftRecord) :
    rs.length ≤ (rs.flatMap (encode order)).length := by
  induction rs with
  | nil => exact Nat.le_refl _
  | cons r rs ih =>
    rw [List.flatMap_cons, List.length_append, List.length_cons, length_encode]
    omega

theorem framedAll_append (order : ByteOrder) (position : Nat) (rs : List DraftRecord)
    (r : DraftRecord) :
    ∃ last, framedAll order position (rs ++ [r]) =
      framedAll order position rs ++ [r.framed order last] := by
  induction rs generalizing position with
  | nil => exact ⟨position, rfl⟩
  | cons s rs ih =>
    obtain ⟨last, hlast⟩ := ih (position + (8 + 4 * s.words))
    exact ⟨last, by rw [List.cons_append, framedAll, hlast, framedAll, List.cons_append]⟩

end DraftRecord

/-! ## Files -/

theorem RecordKind.tag_ne_zero (kind : RecordKind) : kind.tag ≠ 0 := by
  cases kind <;> decide

theorem RecordKind.tag_inj {kind other : RecordKind} : kind.tag = other.tag ↔ kind = other := by
  cases kind <;> cases other <;> decide

/-- Steps over a list and then one more. -/
theorem runSteps_append_singleton {σ ε α : Type} {step : σ → α → Except ε σ} {s s' s'' : σ}
    {as : List α} {a : α} (h : runSteps step s as = (s', none)) (ha : step s' a = .ok s'') :
    runSteps step s (as ++ [a]) = (s'', none) := by
  induction as generalizing s with
  | nil =>
    obtain ⟨rfl, -⟩ := Prod.mk.inj h
    simp only [List.nil_append, runSteps, ha]
  | cons b as ih =>
    rw [runSteps] at h
    rw [List.cons_append, runSteps]
    cases hb : step s b with
    | ok next =>
      rw [hb] at h
      exact ih h
    | error e =>
      rw [hb] at h
      cases h

namespace Draft

variable {d : Draft}

/-- **Every record has a length word** that can say how long it is. -/
def Measured (d : Draft) : Prop := ∀ r ∈ d.records, r.words < UInt32.size

instance (d : Draft) : Decidable d.Measured :=
  inferInstanceAs (Decidable (∀ r ∈ d.records, r.words < UInt32.size))

/-- No record ends the file. -/
def Tagged (d : Draft) : Prop := ∀ r ∈ d.records, r.tag ≠ 0

/-- The cursor behind the header of a draft's file. -/
def behindHeader (d : Draft) : Cursor :=
  ⟨d.order, 12, d.records.flatMap (DraftRecord.encode d.order)⟩

/-- **All records of a draft are read back.** -/
theorem all_behindHeader (htagged : d.Tagged) (hmeasured : d.Measured) :
    Record.all d.behindHeader = ⟨DraftRecord.framedAll d.order 12 d.records, none⟩ :=
  DraftRecord.collect_encode d.order 12 htagged hmeasured (DraftRecord.length_le_flatMap d.order d.records)

theorem length_magic (d : Draft) : (d.kind.magic d.order).length = 4 := by
  cases d.kind <;> cases d.order <;> rfl

/-- **A draft's file has the draft's header,** if its version can be read. -/
theorem hasHeader_encode (hv : d.version.isSupported) :
    HasHeader d.kind d.order d.version d.stamp d.encode where
  magic := by
    rw [encode, List.append_assoc, List.append_assoc, sniff_magic]
  version := by
    rw [encode, List.append_assoc, List.append_assoc, wordAt_encode d.length_magic, Option.map_some,
      Version.ofWord_toWord]
  supported := hv
  stamp := by
    have hfront : (d.kind.magic d.order ++ d.order.encode d.version.toWord).length = 8 := by
      rw [List.length_append, d.length_magic, d.order.length_encode]
    rw [encode, List.append_assoc, wordAt_encode hfront]

/-- The records stand behind twelve bytes. -/
theorem behindHeader_eq (d : Draft) : d.behindHeader = .ofFile d.order d.encode 12 := by
  have hfront : (d.kind.magic d.order ++ d.order.encode d.version.toWord ++
      d.order.encode d.stamp).length = 12 := by
    rw [List.length_append, List.length_append, d.length_magic, d.order.length_encode,
      d.order.length_encode]
  rw [behindHeader, Cursor.ofFile, encode, List.drop_left' hfront]

/-- **A draft with any number of records more.** -/
abbrev Extends : Draft → Draft → Prop :=
  Relation.ReflTransGen fun d d' => ∃ kind payload, d' = d.push kind payload

theorem extends_push (d : Draft) (kind : RecordKind) (payload : List Item) :
    d.Extends (d.push kind payload) :=
  .single ⟨kind, payload, rfl⟩

theorem extends_foldl {α : Type} {add : Draft → α → Draft}
    (hadd : ∀ (d : Draft) a, d.Extends (add d a))
    (d : Draft) (as : List α) : d.Extends (as.foldl add d) := by
  induction as generalizing d with
  | nil => exact .refl
  | cons a as ih => exact (hadd d a).trans (ih (add d a))

/-- More records do not change the header. -/
theorem Extends.header {d' : Draft} (h : d.Extends d') : d' = { d with records := d'.records } := by
  induction h with
  | refl => rfl
  | tail _ hpush ih =>
    obtain ⟨kind, payload, rfl⟩ := hpush
    rw [ih]
    rfl

/-- Nothing that is added ends the file. -/
theorem Extends.tagged {d' : Draft} (h : d.Extends d') (hd : d.Tagged) : d'.Tagged := by
  induction h with
  | refl => exact hd
  | tail _ hpush ih =>
    obtain ⟨kind, payload, rfl⟩ := hpush
    intro r hr
    rcases List.mem_append.1 hr with hr | hr
    · exact ih r hr
    · rw [List.mem_singleton.1 hr]
      exact kind.tag_ne_zero

/-- What a draft was made from is measured if the draft is. -/
theorem Extends.measured {d' : Draft} (h : d.Extends d') (hmeasured : d'.Measured) :
    d.Measured := by
  induction h with
  | refl => exact hmeasured
  | tail _ hpush ih =>
    obtain ⟨kind, payload, rfl⟩ := hpush
    exact ih fun r hr => hmeasured r (List.mem_append_left _ hr)

theorem Measured.of_push {kind : RecordKind} {payload : List Item}
    (h : (d.push kind payload).Measured) :
    d.Measured ∧ DraftRecord.words ⟨kind.tag, payload⟩ < UInt32.size :=
  ⟨fun r hr => h r (List.mem_append_left _ hr),
    h ⟨kind.tag, payload⟩ (List.mem_append_right _ (List.mem_singleton_self _))⟩

/-! ## Steps over a draft -/

section Runs

variable {σ : Type} {step : σ → Record → Except ReadError σ} {s s' s'' : σ}

/-- **The steps over the records of a draft** are all accepted, and lead from one state to another. -/
def Runs (d : Draft) (step : σ → Record → Except ReadError σ) (s s' : σ) : Prop :=
  runSteps step s (DraftRecord.framedAll d.order 12 d.records) = (s', none)

/-- **One record more, one step more.** -/
theorem Runs.push (h : d.Runs step s s') {kind : RecordKind} {payload : List Item}
    (hstep : ∀ position,
      step s' (DraftRecord.framed d.order position ⟨kind.tag, payload⟩) = .ok s'') :
    (d.push kind payload).Runs step s s'' := by
  obtain ⟨last, hlast⟩ := DraftRecord.framedAll_append d.order 12 d.records ⟨kind.tag, payload⟩
  unfold Runs Draft.push
  rw [hlast]
  exact runSteps_append_singleton h (hstep last)

theorem Runs.run_all (h : d.Runs step s s') (htagged : d.Tagged) (hmeasured : d.Measured) :
    (Record.all d.behindHeader).run step s = (s', none) := by
  rw [all_behindHeader htagged hmeasured, Framing.run]
  unfold Runs at h
  rw [h]
  rfl

end Runs

end Draft

end ArcCoverage
