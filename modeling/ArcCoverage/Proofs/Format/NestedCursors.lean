/-
# Cursors within cursors

A reader has several cursors at a time: one on the whole file, and one on each record that was taken from
another of them. Their reads may come in any order. A `CursorTable` holds the cursors, the file's own in
its first slot, and every call adds a slot, for the record if the call took one:

| after the calls | slot 0 | slot 1 | slot 2 | slot 3 |
| --- | --- | --- | --- | --- |
| none | file | | | |
| `record 4` of slot 0 | file | record | | |
| `word` of slot 1 | file | record | empty | |
| `record 2` of slot 1 | file | record | empty | record in the record |

`CursorTable.nested_cursors_confined` says for any calls that no cursor leaves its bytes, that a record takes its bytes
from the cursor it was taken from, once, and that what is read through a record depends on its bytes alone.
The last is said by what would be read if there were nothing else (`CursorTable.alone`): no other cursor, no
other byte of the file, and no offset.
-/
import ArcCoverage.Proofs.Format.LocalReads
import ArcCoverage.Proofs.Profile.Headers

namespace ArcCoverage

/-! ## Tables -/

/-- A call, and the slot of the cursor to which it is put. -/
structure CursorCall where
  slot : Nat
  call : ReadCall
  deriving DecidableEq, Repr

/-- **The cursors that are in use.** A slot may be empty. -/
structure CursorTable where
  slots : List (Option Cursor)
  deriving DecidableEq, Repr

namespace CursorTable

/-- The number of slots. -/
def size (t : CursorTable) : Nat := t.slots.length

/-- The cursor in a slot. -/
def cursor? (t : CursorTable) (k : Nat) : Option Cursor := t.slots[k]?.join

/-- What a call gives; nothing if its slot is empty. -/
def answer (t : CursorTable) (r : CursorCall) : Option Answer :=
  (t.cursor? r.slot).map fun c => (r.call.on c).1

/-- The table with another cursor in a slot. -/
def put (t : CursorTable) (k : Nat) (c : Cursor) : CursorTable := ⟨t.slots.set k (some c)⟩

/-- The table with one more slot. -/
def push (t : CursorTable) (c? : Option Cursor) : CursorTable := ⟨t.slots ++ [c?]⟩

/-- **A call moves its cursor,** and adds a slot. -/
def step (t : CursorTable) (r : CursorCall) : CursorTable :=
  match t.cursor? r.slot with
  | none => t.push none
  | some c => (t.put r.slot (r.call.on c).2).push (r.call.on c).1.taken?

/-- Calls one after another. -/
def run (t : CursorTable) (calls : List CursorCall) : CursorTable := calls.foldl step t

/-- The table with one cursor. -/
def single (c : Cursor) : CursorTable := ⟨[some c]⟩

/-- **A cursor on some bytes, and nothing else:** the other slots are empty, and no byte is before it. -/
def alone (size k : Nat) (order : ByteOrder) (bytes : List UInt8) : CursorTable :=
  put ⟨List.replicate size none⟩ k ⟨order, 0, bytes⟩

/-- The same cursors on another file, with the same places and the same ends. -/
def onFile (file : List UInt8) (t : CursorTable) : CursorTable :=
  ⟨t.slots.map (Option.map (Cursor.onFile file))⟩

/-- **The slots that are reached through slot k** by some calls on a table of a size: its own, and those
of calls that were put to such a slot. -/
inductive Through (size k : Nat) (calls : List CursorCall) : Nat → Prop
  | self : Through size k calls k
  | taken {n : Nat} {r : CursorCall} (hr : calls[n]? = some r) (h : Through size k calls r.slot) :
      Through size k calls (size + n)

/-! ## Calls on a table -/

variable {t : CursorTable} {r : CursorCall} {calls : List CursorCall} {k : Nat} {c : Cursor}

theorem run_cons (t : CursorTable) (r : CursorCall) (calls : List CursorCall) :
    t.run (r :: calls) = (t.step r).run calls := rfl

theorem lt_size_of_cursor? (h : t.cursor? k = some c) : k < t.size := by
  by_contra hk
  rw [cursor?, List.getElem?_eq_none (Nat.le_of_not_lt hk)] at h
  cases h

theorem cursor?_of_size_le (h : t.size ≤ k) : t.cursor? k = none := by
  rw [cursor?, List.getElem?_eq_none h]
  rfl

@[simp] theorem size_put (t : CursorTable) (k : Nat) (c : Cursor) : (t.put k c).size = t.size :=
  List.length_set

@[simp] theorem size_push (t : CursorTable) (c? : Option Cursor) : (t.push c?).size = t.size + 1 :=
  List.length_append

theorem cursor?_put {j : Nat} (hj : j < t.size) (k : Nat) (c : Cursor) :
    (t.put j c).cursor? k = if k = j then some c else t.cursor? k := by
  unfold size at hj
  unfold cursor? put
  rw [List.getElem?_set]
  by_cases hk : k = j
  · subst hk
    rw [if_pos rfl, if_pos hj, if_pos rfl]
    rfl
  · rw [if_neg (Ne.symm hk), if_neg hk]

theorem cursor?_push (t : CursorTable) (c? : Option Cursor) (k : Nat) :
    (t.push c?).cursor? k = if k = t.size then c? else t.cursor? k := by
  unfold cursor? push size
  rw [List.getElem?_append]
  rcases Nat.lt_trichotomy k t.slots.length with hk | rfl | hk
  · rw [if_pos hk, if_neg (Nat.ne_of_lt hk)]
  · simp
  · rw [if_neg (by omega), if_neg (by omega), List.getElem?_eq_none (Nat.le_of_lt hk),
      List.getElem?_eq_none (by simp; omega)]

@[simp] theorem size_step (t : CursorTable) (r : CursorCall) : (t.step r).size = t.size + 1 := by
  unfold step
  split <;> simp

/-- **All that a call does to a table:** it fills the new slot, moves the cursor in its own, and leaves
the others alone. -/
theorem cursor?_step (t : CursorTable) (r : CursorCall) (k : Nat) :
    (t.step r).cursor? k =
      if k = t.size then (t.answer r).bind Answer.taken?
      else if k = r.slot then (t.cursor? k).map fun c => (r.call.on c).2
      else t.cursor? k := by
  unfold step answer
  cases hc : t.cursor? r.slot with
  | none =>
    dsimp only
    rw [cursor?_push]
    split_ifs with hlast hself
    · rfl
    · rw [hself, hc]
      rfl
    · rfl
  | some c =>
    dsimp only
    rw [cursor?_push, size_put, cursor?_put (lt_size_of_cursor? hc)]
    split_ifs with hlast hself
    · rfl
    · rw [hself, hc]
      rfl
    · rfl

theorem cursor?_step_of_ne (hk : k < t.size) (hne : k ≠ r.slot) :
    (t.step r).cursor? k = t.cursor? k := by
  rw [cursor?_step, if_neg (Nat.ne_of_lt hk), if_neg hne]

theorem cursor?_step_self (h : t.cursor? r.slot = some c) :
    (t.step r).cursor? r.slot = some (r.call.on c).2 := by
  rw [cursor?_step, if_neg (Nat.ne_of_lt (lt_size_of_cursor? h)), if_pos rfl, h]
  rfl

/-! ## Cursors on their way -/

/-- **A cursor that is there stays there,** and goes forward. -/
theorem exists_onward_run (h : t.cursor? k = some c) (calls : List CursorCall) :
    ∃ c', (t.run calls).cursor? k = some c' ∧ c.Onward c' := by
  induction calls generalizing t c with
  | nil => exact ⟨c, h, .refl c⟩
  | cons r calls ih =>
    by_cases hk : k = r.slot
    · subst hk
      obtain ⟨c', hrun, honward⟩ := ih (cursor?_step_self h)
      exact ⟨c', hrun, (r.call.on_onward c).trans honward⟩
    · exact ih ((cursor?_step_of_ne (lt_size_of_cursor? h) hk).trans h)

/-- **A cursor to which no call is put stays where it is.** -/
theorem cursor?_run_of_untouched (h : t.cursor? k = some c) (hcalls : ∀ r ∈ calls, r.slot ≠ k) :
    (t.run calls).cursor? k = some c := by
  induction calls generalizing t with
  | nil => exact h
  | cons r calls ih =>
    have hne : k ≠ r.slot := (hcalls r List.mem_cons_self).symm
    exact ih ((cursor?_step_of_ne (lt_size_of_cursor? h) hne).trans h)
      fun r' hr' => hcalls r' (List.mem_cons_of_mem _ hr')

/-- **The cursors of a table show a file** if each has the file's bytes from its place to its end. -/
def Shows (order : ByteOrder) (file : List UInt8) (t : CursorTable) : Prop :=
  ∀ k c, t.cursor? k = some c → c.order = order ∧ c.limit ≤ file.length ∧ c.onFile file = c

theorem Shows.step {order : ByteOrder} {file : List UInt8} (h : t.Shows order file) (r : CursorCall) :
    (t.step r).Shows order file := by
  intro k c hc
  rw [cursor?_step] at hc
  split_ifs at hc with hlast hself
  · obtain ⟨a, ha, htaken⟩ := Option.bind_eq_some_iff.1 hc
    obtain ⟨d, hd, rfl⟩ := Option.map_eq_some_iff.1 ha
    obtain ⟨horder, hlimit, hfile⟩ := h _ d hd
    obtain ⟨n, hn, rfl⟩ := ReadCall.on_taken htaken
    have hinner : d.position + n ≤ d.limit := Nat.add_le_add_left hn _
    exact ⟨horder, (Cursor.limit_first hn).le.trans (hinner.trans hlimit), Cursor.onFile_first hfile hn⟩
  · obtain ⟨d, hd, rfl⟩ := Option.map_eq_some_iff.1 hc
    obtain ⟨horder, hlimit, hfile⟩ := h _ d hd
    have honward := r.call.on_onward d
    exact ⟨honward.order_eq.trans horder, honward.limit_eq.le.trans hlimit, honward.onFile_eq hfile⟩
  · exact h k c hc

theorem Shows.run {order : ByteOrder} {file : List UInt8} (h : t.Shows order file)
    (calls : List CursorCall) : (t.run calls).Shows order file := by
  induction calls generalizing t with
  | nil => exact h
  | cons r calls ih => exact ih (h.step r)

/-! ## Alone -/

/-- **The cursors in some slots are those of another table,** with more bytes in front. Nothing is said of
the other slots. -/
structure AgreesOn (S : Nat → Prop) (n : Nat) (t base : CursorTable) : Prop where
  size : t.size = base.size
  cursor : ∀ k, S k → t.cursor? k = (base.cursor? k).map (Cursor.displaced n)

section AgreesOn

variable {S : Nat → Prop} {n : Nat} {base : CursorTable}

theorem AgreesOn.answer (h : AgreesOn S n t base) (hr : S r.slot) :
    t.answer r = (base.answer r).map (Answer.displaced n) := by
  unfold CursorTable.answer
  rw [h.cursor _ hr]
  cases base.cursor? r.slot with
  | none => rfl
  | some c =>
    simp only [Option.map_some]
    rw [ReadCall.on_displaced]

/-- One call keeps the agreement, if what it adds is only looked at where its cursor is. -/
theorem AgreesOn.step (h : AgreesOn S n t base) (hnew : S t.size → S r.slot) :
    AgreesOn S n (t.step r) (base.step r) := by
  refine ⟨by rw [size_step, size_step, h.size], fun k hk => ?_⟩
  rw [cursor?_step, cursor?_step, ← h.size]
  split_ifs with hlast hself
  · -- the new slot holds what the call took, so the answers have to agree
    rw [h.answer (hnew (hlast ▸ hk))]
    cases base.answer r with
    | none => rfl
    | some a => exact Answer.taken?_displaced n a
  · rw [h.cursor k hk]
    cases base.cursor? k with
    | none => rfl
    | some c =>
      simp only [Option.map_some]
      rw [ReadCall.on_displaced]
  · exact h.cursor k hk

theorem AgreesOn.run (h : AgreesOn S n t base)
    (hnew : ∀ (m : Nat) (r : CursorCall), calls[m]? = some r → S (t.size + m) → S r.slot) :
    AgreesOn S n (t.run calls) (base.run calls) := by
  induction calls generalizing t base with
  | nil => exact h
  | cons r calls ih =>
    refine ih (h.step (hnew 0 r rfl)) fun m r' hr' hm => hnew (m + 1) r' hr' ?_
    rwa [size_step, Nat.add_assoc, Nat.add_comm 1] at hm

end AgreesOn

/-- A new slot is only reached through the cursor that its call was put to. -/
theorem Through.of_new {size n : Nat} (hk : k < size) (hr : calls[n]? = some r)
    (h : Through size k calls (size + n)) : Through size k calls r.slot := by
  generalize hslot : size + n = slot at h
  cases h with
  | self => omega
  | @taken m r' hr' h =>
    obtain rfl : m = n := by omega
    obtain rfl : r' = r := Option.some.inj (hr'.symm.trans hr)
    exact h

theorem agreesOn_alone (h : t.cursor? k = some c) (later : List CursorCall) :
    AgreesOn (Through t.size k later) c.position t (alone t.size k c.order c.rest) := by
  have hk := lt_size_of_cursor? h
  have hsize : (⟨List.replicate t.size none⟩ : CursorTable).size = t.size := List.length_replicate
  refine ⟨by rw [alone, size_put, hsize], fun j hj => ?_⟩
  rw [alone, cursor?_put (hsize.symm ▸ hk)]
  cases hj with
  | self =>
    rw [if_pos rfl, h]
    rfl
  | @taken n r _ _ =>
    -- nothing has been taken yet
    rw [if_neg (by omega), cursor?_of_size_le (Nat.le_add_right _ _),
      cursor?_of_size_le (hsize.symm ▸ Nat.le_add_right _ _)]
    rfl

/-- **What is read through a cursor is what is read of its bytes alone.** -/
theorem answer_run_eq (h : t.cursor? k = some c) {later : List CursorCall}
    (hr : Through t.size k later r.slot) :
    (t.run later).answer r =
      (((alone t.size k c.order c.rest).run later).answer r).map (Answer.displaced c.position) := by
  have hrun := (agreesOn_alone h later).run fun _ _ hr' hnew =>
    Through.of_new (lt_size_of_cursor? h) hr' hnew
  exact hrun.answer hr

theorem size_onFile (file : List UInt8) (t : CursorTable) : (t.onFile file).size = t.size :=
  List.length_map _

theorem cursor?_onFile (file : List UInt8) (h : t.cursor? k = some c) :
    (t.onFile file).cursor? k = some (c.onFile file) := by
  have hslot : t.slots[k]? = some (some c) := Option.join_eq_some_iff.1 h
  rw [cursor?, onFile, List.getElem?_map, hslot]
  rfl

/-! ## Confinement -/

/-- **What is true of the cursors on a file** after any calls, whatever is called from then on. -/
structure Confined (order : ByteOrder) (file : List UInt8) (t : CursorTable) : Prop where
  /-- The file's own cursor ends where the file does. -/
  whole : ∃ c, t.cursor? 0 = some c ∧ c.limit = file.length
  /-- Every cursor shows the bytes of the file from its place to its end. -/
  shows : ∀ k c, t.cursor? k = some c →
    c.order = order ∧ c.limit ≤ file.length ∧ c.onFile file = c
  /-- **No cursor goes back, and none passes its end,** which stays where it is. -/
  forward : ∀ k c, t.cursor? k = some c → ∀ later, ∃ c', (t.run later).cursor? k = some c' ∧
    c.position ≤ c'.position ∧ c'.position ≤ c.limit ∧ c'.limit = c.limit
  /-- A word is read if there is one before the end. -/
  word : ∀ k c w, t.cursor? k = some c →
    (t.answer ⟨k, .word⟩ = some (.value (.word w)) ↔
      wordAt order (file.take c.limit) c.position = some w)
  /-- A record is taken if its bytes are before the end. -/
  fits : ∀ k c words, t.cursor? k = some c →
    ((∃ payload, t.answer ⟨k, .record words⟩ = some (.value (.record payload))) ↔
      c.position + 4 * words.toNat ≤ c.limit)
  /-- **Words and records that fail leave the cursor where it was.** -/
  stays : ∀ k call e, call = .word ∨ (∃ words, call = .record words) →
    t.answer ⟨k, call⟩ = some (.short e) → (t.step ⟨k, call⟩).cursor? k = t.cursor? k
  /-- **A record has the next bytes of its cursor,** which stands behind them, whatever is read
  through other cursors then. -/
  taken : ∀ k words payload, t.answer ⟨k, .record words⟩ = some (.value (.record payload)) →
    ∃ c, t.cursor? k = some c ∧
      (t.step ⟨k, .record words⟩).cursor? t.size = some payload ∧
      payload.position = c.position ∧ payload.limit = c.position + 4 * words.toNat ∧
      payload.limit ≤ c.limit ∧
      ∀ later, (∀ r ∈ later, r.slot ≠ k) →
        ∃ c', (t.run (⟨k, .record words⟩ :: later)).cursor? k = some c' ∧
          c'.position = c.position + 4 * words.toNat
  /-- **What is read through a cursor depends on the byte order and on its bytes alone.** Only the
  offsets in the answers come from elsewhere. -/
  depends : ∀ k c, t.cursor? k = some c → ∀ later r, Through t.size k later r.slot →
    (t.run later).answer r =
      (((alone t.size k c.order c.rest).run later).answer r).map (Answer.displaced c.position)
  /-- **Other bytes of the file may be changed:** nothing else is read through the cursor then. -/
  changed : ∀ k c, t.cursor? k = some c → ∀ file' : List UInt8,
    (∀ i, c.position ≤ i → i < c.limit → file'[i]? = file[i]?) →
      ∀ later r, Through t.size k later r.slot →
        ((t.onFile file').run later).answer r = (t.run later).answer r

section Confined

variable {order : ByteOrder} {file : List UInt8}

/-- A successful record call has its bytes, and leaves the cursor behind them. -/
theorem record_taken {words : UInt32} {payload : Cursor} (hc : t.cursor? k = some c)
    (h : t.answer ⟨k, .record words⟩ = some (.value (.record payload))) :
    4 * words.toNat ≤ c.rest.length ∧
      payload = c.first (4 * words.toNat) ∧
      (t.step ⟨k, .record words⟩).cursor? t.size = some payload ∧
      (t.step ⟨k, .record words⟩).cursor? k = some (c.advance (4 * words.toNat)) := by
  have hlast : (t.step ⟨k, .record words⟩).cursor? t.size = some payload := by
    rw [cursor?_step, if_pos rfl, h]
    rfl
  have hself : (t.step ⟨k, .record words⟩).cursor? k = some ((ReadCall.record words).on c).2 :=
    cursor?_step_self (r := ⟨k, .record words⟩) hc
  rw [answer, hc, Option.map_some, Option.some.injEq] at h
  rw [ReadCall.on_record, Nat.mul_comm] at h hself
  split_ifs at h hself with hfits
  · cases h
    exact ⟨hfits, rfl, hlast, hself⟩

theorem answer_record_iff {words : UInt32} (hc : t.cursor? k = some c) :
    (∃ payload, t.answer ⟨k, .record words⟩ = some (.value (.record payload))) ↔
      c.position + 4 * words.toNat ≤ c.limit := by
  have hroom : c.position + 4 * words.toNat ≤ c.limit ↔ 4 * words.toNat ≤ c.rest.length :=
    Nat.add_le_add_iff_left
  rw [hroom]
  constructor
  · rintro ⟨payload, h⟩
    exact (record_taken hc h).1
  · intro h
    refine ⟨c.first (4 * words.toNat), ?_⟩
    rw [answer, hc, Option.map_some, ReadCall.on_record, Nat.mul_comm, if_pos h]

theorem answer_word_iff {w : UInt32} (hc : t.cursor? k = some c) (hlimit : c.limit ≤ file.length)
    (hfile : c.onFile file = c) :
    t.answer ⟨k, .word⟩ = some (.value (.word w)) ↔
      wordAt c.order (file.take c.limit) c.position = some w := by
  have hn : c.position ≤ (file.take c.limit).length := by
    rw [List.length_take, Nat.min_eq_left hlimit]
    exact c.position_le_limit
  have hread (c' : Cursor) : Read.word c = .ok w c' ↔
      wordAt c.order (file.take c.limit) c.position = some w ∧
        c' = .ofFile c.order (file.take c.limit) (c.position + 4) := by
    conv_lhs => rw [← hfile]
    exact Read.word_eq_ok hn
  rw [answer, hc, Option.map_some, Option.some.injEq, ReadCall.on]
  constructor
  · intro h
    cases hword : Read.word c with
    | ok w' c' =>
      rw [hword] at h
      cases h
      exact ((hread c').1 hword).1
    | error e c' =>
      rw [hword] at h
      cases h
  · intro h
    rw [(hread _).2 ⟨h, rfl⟩]
    rfl

/-- Words and records are read as a whole or not at all. -/
theorem cursor?_step_of_short {call : ReadCall} {e : Shortage}
    (hcall : call = .word ∨ ∃ words, call = .record words)
    (h : t.answer ⟨k, call⟩ = some (.short e)) : (t.step ⟨k, call⟩).cursor? k = t.cursor? k := by
  obtain ⟨c, hc, hshort⟩ := Option.map_eq_some_iff.1 h
  dsimp only at hc hshort
  have hself : (t.step ⟨k, call⟩).cursor? k = some (call.on c).2 :=
    cursor?_step_self (r := ⟨k, call⟩) hc
  rw [hself, hc]
  rcases hcall with rfl | ⟨words, rfl⟩
  · rw [ReadCall.on_word] at hshort ⊢
    split_ifs at hshort ⊢
    rfl
  · rw [ReadCall.on_record] at hshort ⊢
    split_ifs at hshort ⊢
    rfl

theorem shows_single (h : 4 ≤ file.length) : (single (.ofFile order file 4)).Shows order file := by
  intro k c hc
  cases k with
  | zero =>
    obtain rfl := Option.some.inj hc
    exact ⟨rfl, (Cursor.limit_ofFile h).le, Cursor.onFile_ofFile h⟩
  | succ k => cases hc

/-- **Cursors on a file are confined,** whatever has been called. -/
theorem nested_cursors_confined {kind : FileKind} {otherwise : ReadError}
    (h : openFile kind otherwise file = .ok c) (calls : List CursorCall) :
    ((single c).run calls).Confined c.order file := by
  obtain ⟨order, hmagic, rfl⟩ := openFile_eq_ok.1 h
  have hfour : 4 ≤ file.length := four_le_length_of_sniff hmagic
  have hsingle : (single (.ofFile order file 4)).Shows order file := shows_single hfour
  have hshows := hsingle.run calls
  have hfirst : (single (.ofFile order file 4)).cursor? 0 = some (.ofFile order file 4) := rfl
  obtain ⟨c₀, hwhole, honward₀⟩ := exists_onward_run hfirst calls
  -- of the calls so far, only what the cursors show matters from here on
  generalize (single (.ofFile order file 4)).run calls = t at hshows hwhole
  exact {
    whole := ⟨c₀, hwhole, honward₀.limit_eq.trans (Cursor.limit_ofFile hfour)⟩
    shows := hshows
    forward := by
      intro k c hc later
      obtain ⟨c', hc', honward⟩ := exists_onward_run hc later
      exact ⟨c', hc', honward.position_le, honward.limit_eq ▸ c'.position_le_limit, honward.limit_eq⟩
    word := by
      intro k c w hc
      obtain ⟨horder, hlimit, hfile⟩ := hshows k c hc
      exact horder ▸ answer_word_iff hc hlimit hfile
    fits := fun k c words hc => answer_record_iff hc
    stays := fun k call e hcall hshort => cursor?_step_of_short hcall hshort
    taken := by
      intro k words payload hpayload
      obtain ⟨c, hc, -⟩ := Option.map_eq_some_iff.1 hpayload
      obtain ⟨hfits, rfl, hlast, hself⟩ := record_taken hc hpayload
      have hlimit := Cursor.limit_first hfits
      have hinner : c.position + 4 * words.toNat ≤ c.limit := Nat.add_le_add_left hfits _
      refine ⟨c, hc, hlast, rfl, hlimit, hlimit.le.trans hinner, fun later hlater => ?_⟩
      rw [run_cons]
      exact ⟨_, cursor?_run_of_untouched hself hlater, rfl⟩
    depends := fun k c hc later r hr => answer_run_eq hc hr
    changed := by
      intro k c hc file' hsame later r hr
      have hchanged : (t.onFile file').cursor? k = some c := by
        rw [cursor?_onFile file' hc, Cursor.onFile_congr hsame, (hshows k c hc).2.2]
      have hr' : Through (t.onFile file').size k later r.slot := by rwa [size_onFile]
      -- in either file it is what is read of the cursor's bytes alone
      rw [answer_run_eq hchanged hr', answer_run_eq hc hr, size_onFile] }

end Confined

/-- A word, four words of which the first two are a text, and half a word. -/
def boxedFile : List UInt8 :=
  FileKind.data.magic .little ++
    [5, 0, 0, 0, 1, 0, 0, 0, 97, 98, 0, 0, 7, 0, 0, 0, 8, 0, 0, 0, 9, 0]

/-- A record is taken, and a record from it. The file's own cursor runs short then. -/
def boxedCalls : List CursorCall :=
  [⟨0, .word⟩, ⟨0, .record 4⟩, ⟨2, .record 2⟩, ⟨0, .word⟩]

/-- **A record within a record,** in slot 3. Its text is also read in a file that ends behind it, where the
outer record runs short. Of the file itself the outer record is read to its end, after a record in it that
is too long. -/
theorem nested_cursors_confined_of_boxed :
    openFile .data .notData boxedFile = .ok (.ofFile .little boxedFile 4) ∧
      ((single (.ofFile .little boxedFile 4)).run boxedCalls).Confined .little boxedFile ∧
      ((((single (.ofFile .little boxedFile 4)).run boxedCalls).onFile
        (List.replicate 8 255 ++ [1, 0, 0, 0, 97, 98, 0, 0])).run [⟨2, .counter⟩]).answer
          ⟨3, .string⟩ = some (.value (.string "ab")) ∧
      ((single (.ofFile .little boxedFile 4)).run (boxedCalls ++
        [⟨3, .string⟩, ⟨3, .word⟩, ⟨2, .record 9⟩, ⟨2, .counter⟩])).slots.map
          (Option.map fun c => (c.position, c.limit)) =
        [some (24, 26), none, some (24, 24), some (16, 16), none, none, none, none, none] := by
  have hopen : openFile .data .notData boxedFile = .ok (.ofFile .little boxedFile 4) := rfl
  have hconfined := nested_cursors_confined hopen boxedCalls
  have hslot : ((single (.ofFile .little boxedFile 4)).run boxedCalls).cursor? 3 =
      some ⟨.little, 8, [1, 0, 0, 0, 97, 98, 0, 0]⟩ := by decide
  have hsame : ∀ i, 8 ≤ i → i < 16 →
      (List.replicate 8 255 ++ [1, 0, 0, 0, 97, 98, 0, 0])[i]? = boxedFile[i]? := by
    intro i hle hlt
    interval_cases i <;> rfl
  have hchanged := hconfined.changed 3 _ hslot _ hsame [⟨2, .counter⟩] ⟨3, .string⟩ .self
  exact ⟨hopen, hconfined, hchanged.trans (by decide +kernel), by decide +kernel⟩

end CursorTable

end ArcCoverage
