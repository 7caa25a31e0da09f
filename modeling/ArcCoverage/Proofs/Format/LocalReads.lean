/-
# Reads stay within their cursor

What a read does depends on the bytes that a cursor still has before it, and on nothing else:

| property | notion | of a read | of any call |
| --- | --- | --- | --- |
| it goes forward, and not past the end | `Cursor.Onward` | `Read.IsLocal.onward` | `ReadCall.on_onward` |
| it does the same with other bytes in front | `Cursor.displaced` | `Read.IsLocal.displaced` | `ReadCall.on_displaced` |

Both hold of a run of bytes and are kept by going on (`Read.IsLocal.bind`), so words, counters and texts
have them too, whether they are read or run short. Words and records are taken as a whole or not at all
(`ReadCall.on_word`, `ReadCall.on_record`).

`Cursor.onFile` is the other view of a cursor: a place in a file, and an end within it. The file's bytes
before the place and behind the end are there, but nothing is read of them (`Cursor.onFile_congr`).
-/
import ArcCoverage.Proofs.Format.Boundaries
import ArcCoverage.Proofs.Format.Spelling

namespace ArcCoverage

/-! ## Further on -/

/-- **The same cursor further on,** by no more bytes than were left. -/
def Cursor.Onward (c c' : Cursor) : Prop := ∃ n, n ≤ c.rest.length ∧ c' = c.advance n

/-- **A cursor on the next n bytes,** at the same place. -/
def Cursor.first (c : Cursor) (n : Nat) : Cursor := { c with rest := c.rest.take n }

/-- The cursor with more bytes in front of what was in front of it. -/
def Cursor.displaced (n : Nat) (c : Cursor) : Cursor := { c with position := n + c.position }

/-- The shortage with more bytes in front. -/
def Shortage.displaced (n : Nat) (e : Shortage) : Shortage := { e with position := n + e.position }

namespace Cursor

variable {c c' c'' : Cursor} {n m : Nat}

@[simp] theorem position_advance : (c.advance n).position = c.position + n := rfl

@[simp] theorem length_rest_advance : (c.advance n).rest.length = c.rest.length - n :=
  List.length_drop

@[simp] theorem rest_displaced : (c.displaced n).rest = c.rest := rfl

theorem advance_zero (c : Cursor) : c.advance 0 = c := rfl

theorem advance_advance (c : Cursor) (n m : Nat) : (c.advance n).advance m = c.advance (n + m) := by
  simp only [advance, List.drop_drop, Nat.add_assoc]

/-- A cursor within its bytes has the same end. -/
theorem limit_advance (h : n ≤ c.rest.length) : (c.advance n).limit = c.limit := by
  simp only [limit, position_advance, length_rest_advance]
  omega

theorem limit_first (h : n ≤ c.rest.length) : (c.first n).limit = c.position + n := by
  simp only [limit, first, List.length_take, Nat.min_eq_left h]

theorem position_le_limit (c : Cursor) : c.position ≤ c.limit := Nat.le_add_right _ _

theorem Onward.refl (c : Cursor) : c.Onward c := ⟨0, Nat.zero_le _, (advance_zero c).symm⟩

theorem Onward.trans (h : c.Onward c') (h' : c'.Onward c'') : c.Onward c'' := by
  obtain ⟨n, hn, rfl⟩ := h
  obtain ⟨m, hm, rfl⟩ := h'
  rw [length_rest_advance] at hm
  exact ⟨n + m, by omega, advance_advance c n m⟩

theorem Onward.order_eq (h : c.Onward c') : c'.order = c.order := by
  obtain ⟨n, -, rfl⟩ := h
  rfl

theorem Onward.position_le (h : c.Onward c') : c.position ≤ c'.position := by
  obtain ⟨n, -, rfl⟩ := h
  exact Nat.le_add_right _ _

/-- **The end stays where it is.** -/
theorem Onward.limit_eq (h : c.Onward c') : c'.limit = c.limit := by
  obtain ⟨n, hn, rfl⟩ := h
  exact limit_advance hn

theorem advance_displaced (c : Cursor) (n m : Nat) :
    (c.displaced n).advance m = (c.advance m).displaced n := by
  simp only [advance, displaced, Nat.add_assoc]

/-! ## Ends within a file -/

/-- **The cursor of a file** with the place and the end that a cursor has. -/
def onFile (file : List UInt8) (c : Cursor) : Cursor := .ofFile c.order (file.take c.limit) c.position

variable {file file' : List UInt8} {order : ByteOrder}

/-- A file's cursor shows it up to its end. -/
theorem limit_ofFile (h : n ≤ file.length) : (ofFile order file n).limit = file.length := by
  simp only [limit, ofFile, List.length_drop]
  omega

theorem onFile_ofFile (h : n ≤ file.length) : (ofFile order file n).onFile file = ofFile order file n := by
  rw [onFile, limit_ofFile h, List.take_length]
  rfl

/-- A cursor that is moved on still shows the file. -/
theorem Onward.onFile_eq (h : c.Onward c') (hfile : c.onFile file = c) : c'.onFile file = c' := by
  obtain ⟨n, hn, rfl⟩ := h
  rw [onFile, limit_advance hn]
  conv_rhs => rw [← hfile, onFile, advance_ofFile]
  rfl

/-- A cursor on the next bytes shows the file up to their end. -/
theorem onFile_first (hfile : c.onFile file = c) (hn : n ≤ c.rest.length) :
    (c.first n).onFile file = c.first n := by
  have hrest : (file.take c.limit).drop c.position = c.rest := congrArg Cursor.rest hfile
  have hle : c.position + n ≤ c.limit := Nat.add_le_add_left hn _
  rw [onFile, limit_first hn]
  simp only [ofFile, first, Cursor.mk.injEq, true_and]
  rw [← hrest, List.take_drop, List.take_take, Nat.min_eq_left hle]

/-- **Bytes that a cursor does not show do not matter.** -/
theorem onFile_congr (h : ∀ i, c.position ≤ i → i < c.limit → file'[i]? = file[i]?) :
    c.onFile file' = c.onFile file := by
  simp only [onFile, ofFile, Cursor.mk.injEq, true_and]
  refine List.ext_getElem? fun i => ?_
  rw [List.getElem?_drop, List.getElem?_drop, List.getElem?_take, List.getElem?_take]
  split_ifs with hi
  · exact h _ (Nat.le_add_right _ _) hi
  · rfl

end Cursor

/-! ## Local reads -/

namespace Read

variable {α β : Type} {x : Read α} {c : Cursor} {n : Nat}

/-- Where a read leaves the cursor, also when it fails. -/
def left (x : Read α) (c : Cursor) : Cursor :=
  match x c with
  | .ok _ c' => c'
  | .error _ c' => c'

/-- An outcome with more bytes in front. -/
def displace (n : Nat) : EStateM.Result Shortage Cursor α → EStateM.Result Shortage Cursor α
  | .ok a c => .ok a (c.displaced n)
  | .error e c => .error (e.displaced n) (c.displaced n)

/-- **A read that only sees what is before the cursor:** it goes forward within these bytes, and does
the same at another offset. -/
structure IsLocal (x : Read α) : Prop where
  onward : ∀ c : Cursor, c.Onward (left x c)
  displaced : ∀ (n : Nat) (c : Cursor), x (c.displaced n) = displace n (x c)

theorem left_of_ok {a : α} {c' : Cursor} (h : x c = .ok a c') : left x c = c' := by
  rw [left, h]

theorem left_of_error {e : Shortage} {c' : Cursor} (h : x c = .error e c') : left x c = c' := by
  rw [left, h]

theorem isLocal_pure (a : α) : IsLocal (pure a : Read α) := ⟨Cursor.Onward.refl, fun _ _ => rfl⟩

/-- **One local read behind another.** -/
theorem IsLocal.bind {f : α → Read β} (h : IsLocal x) (hf : ∀ a, IsLocal (f a)) :
    IsLocal (x >>= f) := by
  constructor
  · intro c
    have hfirst := h.onward c
    cases hx : x c with
    | ok a c' =>
      rw [left_of_ok hx] at hfirst
      rw [left, EStateM.bind_of_ok hx]
      exact hfirst.trans ((hf a).onward c')
    | error e c' =>
      rw [left_of_error hx] at hfirst
      rwa [left_of_error (EStateM.bind_eq_error hx)]
  · intro n c
    have hfirst := h.displaced n c
    cases hx : x c with
    | ok a c' =>
      rw [hx] at hfirst
      rw [EStateM.bind_of_ok hfirst, EStateM.bind_of_ok hx, (hf a).displaced]
    | error e c' =>
      rw [hx] at hfirst
      rw [EStateM.bind_eq_error hfirst, EStateM.bind_eq_error hx]
      rfl

theorem isLocal_bytes (n : Nat) : IsLocal (bytes n) := by
  constructor
  · intro c
    unfold left bytes
    split_ifs with h
    · exact ⟨n, h, rfl⟩
    · exact .refl c
  · intro m c
    simp only [bytes, Cursor.advance_displaced, Cursor.rest_displaced]
    split_ifs <;> rfl

theorem word_eq (c : Cursor) :
    word c = if 4 ≤ c.rest.length then .ok (wordOf c.order (c.rest.take 4)) (c.advance 4)
      else .error ⟨c.position, 4⟩ c := by
  unfold word bytes
  split_ifs <;> rfl

theorem record_eq (words : UInt32) (c : Cursor) :
    record words c =
      if words.toNat * 4 ≤ c.rest.length then
        .ok (c.first (words.toNat * 4)) (c.advance (words.toNat * 4))
      else .error ⟨c.position, words.toNat * 4⟩ c := by
  unfold record bytes
  split_ifs <;> rfl

theorem isLocal_word : IsLocal word := by
  constructor
  · intro c
    rw [left, word_eq]
    split_ifs with h
    · exact ⟨4, h, rfl⟩
    · exact .refl c
  · intro n c
    simp only [word_eq, Cursor.advance_displaced, Cursor.rest_displaced]
    split_ifs <;> rfl

theorem isLocal_counter : IsLocal counter :=
  isLocal_word.bind fun _ => isLocal_word.bind fun _ => isLocal_pure _

theorem isLocal_string : IsLocal string :=
  isLocal_word.bind fun _ => (isLocal_bytes _).bind fun _ => isLocal_pure _

end Read

/-! ## Calls and answers -/

/-- A read that is asked of a cursor. -/
inductive ReadCall where
  | word
  | counter
  | string
  | record (words : UInt32)
  deriving DecidableEq, Repr

/-- What is read. -/
inductive ReadValue where
  | word (w : UInt32)
  | counter (n : UInt64)
  | string (s : String)
  | record (payload : Cursor)
  deriving DecidableEq, Repr

/-- What comes of a call: a value, or a shortage. -/
inductive Answer where
  | value (v : ReadValue)
  | short (e : Shortage)
  deriving DecidableEq, Repr

/-- The answer that a read gives, and the cursor that it leaves. -/
def Answer.ofResult {α : Type} (make : α → ReadValue) :
    EStateM.Result Shortage Cursor α → Answer × Cursor
  | .ok a c => (.value (make a), c)
  | .error e c => (.short e, c)

/-- **A call put to a cursor.** -/
def ReadCall.on : ReadCall → Cursor → Answer × Cursor
  | .word, c => Answer.ofResult .word (Read.word c)
  | .counter, c => Answer.ofResult .counter (Read.counter c)
  | .string, c => Answer.ofResult .string (Read.string c)
  | .record words, c => Answer.ofResult .record (Read.record words c)

/-- The record that was taken, if one was. -/
def Answer.taken? : Answer → Option Cursor
  | .value (.record payload) => some payload
  | _ => none

/-- The value with more bytes in front. Only records know where they are. -/
def ReadValue.displaced (n : Nat) : ReadValue → ReadValue
  | .record payload => .record (payload.displaced n)
  | v => v

/-- The answer with more bytes in front. -/
def Answer.displaced (n : Nat) : Answer → Answer
  | .value v => .value (v.displaced n)
  | .short e => .short (e.displaced n)

/-! ## One call -/

namespace ReadCall

variable {c payload : Cursor} {n : Nat} {words : UInt32}

theorem snd_ofResult {α : Type} (make : α → ReadValue) (x : Read α) (c : Cursor) :
    (Answer.ofResult make (x c)).2 = Read.left x c := by
  unfold Read.left
  cases x c <;> rfl

/-- What a plain read gives at another offset. -/
theorem ofResult_displaced {α : Type} {x : Read α} (h : x.IsLocal) {make : α → ReadValue}
    (hmake : ∀ a, (make a).displaced n = make a) (c : Cursor) :
    Answer.ofResult make (x (c.displaced n)) =
      ((Answer.ofResult make (x c)).1.displaced n, (Answer.ofResult make (x c)).2.displaced n) := by
  rw [h.displaced]
  cases x c with
  | ok a c' => simp only [Read.displace, Answer.ofResult, Answer.displaced, hmake]
  | error e c' => rfl

/-- A plain read takes no record. -/
theorem taken?_ofResult {α : Type} {make : α → ReadValue}
    (hmake : ∀ a, (Answer.value (make a)).taken? = none)
    (result : EStateM.Result Shortage Cursor α) : (Answer.ofResult make result).1.taken? = none := by
  cases result with
  | ok a c => exact hmake a
  | error e c => rfl

/-- **A word is read,** or the cursor stays where it is. -/
theorem on_word (c : Cursor) : word.on c =
    if 4 ≤ c.rest.length then
      (.value (.word (Read.wordOf c.order (c.rest.take 4))), c.advance 4)
    else (.short ⟨c.position, 4⟩, c) := by
  rw [on, Read.word_eq]
  split_ifs <;> rfl

/-- **A record is taken,** or the cursor stays where it is. -/
theorem on_record (words : UInt32) (c : Cursor) : (record words).on c =
    if words.toNat * 4 ≤ c.rest.length then
      (.value (.record (c.first (words.toNat * 4))), c.advance (words.toNat * 4))
    else (.short ⟨c.position, words.toNat * 4⟩, c) := by
  rw [on, Read.record_eq]
  split_ifs <;> rfl

/-- **Every call moves its cursor forward,** within the bytes that are left. -/
theorem on_onward (call : ReadCall) (c : Cursor) : c.Onward (call.on c).2 := by
  cases call with
  | word => exact snd_ofResult _ _ c ▸ Read.isLocal_word.onward c
  | counter => exact snd_ofResult _ _ c ▸ Read.isLocal_counter.onward c
  | string => exact snd_ofResult _ _ c ▸ Read.isLocal_string.onward c
  | record words =>
    rw [on_record]
    split_ifs with h
    · exact ⟨_, h, rfl⟩
    · exact .refl c

/-- **Every call gives the same at another offset.** -/
theorem on_displaced (call : ReadCall) (n : Nat) (c : Cursor) :
    call.on (c.displaced n) = ((call.on c).1.displaced n, (call.on c).2.displaced n) := by
  cases call with
  | word => exact ofResult_displaced Read.isLocal_word (fun _ => rfl) c
  | counter => exact ofResult_displaced Read.isLocal_counter (fun _ => rfl) c
  | string => exact ofResult_displaced Read.isLocal_string (fun _ => rfl) c
  | record words =>
    simp only [on_record, Cursor.rest_displaced, Cursor.advance_displaced]
    split_ifs <;> rfl

/-- **Only a record call takes a record,** and it takes the next bytes. -/
theorem on_taken {call : ReadCall} (h : (call.on c).1.taken? = some payload) :
    ∃ n, n ≤ c.rest.length ∧ payload = c.first n := by
  cases call with
  | word =>
    rw [on, taken?_ofResult fun _ => rfl] at h
    cases h
  | counter =>
    rw [on, taken?_ofResult fun _ => rfl] at h
    cases h
  | string =>
    rw [on, taken?_ofResult fun _ => rfl] at h
    cases h
  | record words =>
    rw [on_record] at h
    split_ifs at h with hfits
    · exact ⟨_, hfits, (Option.some.inj h).symm⟩
    · cases h

end ReadCall

theorem Answer.taken?_displaced (n : Nat) (a : Answer) :
    (a.displaced n).taken? = a.taken?.map (Cursor.displaced n) := by
  cases a with
  | value v => cases v <;> rfl
  | short e => rfl

end ArcCoverage
