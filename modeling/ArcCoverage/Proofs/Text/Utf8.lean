/-
# Texts are read back from their bytes

The lenient decoder is made for bytes of any kind. On the encoding of a text it is exact
(`Utf8.decode_encode`): each character's bytes open a sequence whose bounds the next byte keeps, and
the last of them gives the character back.

| code point `v` | bytes | a bound that holds because |
| --- | ---: | --- |
| `v < 0x80` | 1 | |
| `v < 0x800` | 2 | |
| `v < 0x10000` | 3 | `v ≥ 0x800` behind `e0`, no surrogates behind `ed` |
| `v < 0x110000` | 4 | `v ≥ 0x10000` behind `f0`, `v < 0x110000` behind `f4` |

The character zero apart, no byte of an encoding is zero (`Utf8.zero_notMem_encode`), so a text
without it ends where its padding begins.
-/
import ArcCoverage.Text.Utf8
import Mathlib.Tactic.IntervalCases

namespace ArcCoverage.Utf8

/-! ## One byte -/

/-- The byte of a number below 256. -/
theorem toNat_byte {n : Nat} (h : n < 256) : (UInt8.ofNat n).toNat = n := by
  rw [UInt8.toNat_ofNat', Nat.mod_eq_of_lt h]

/-- A byte within the bounds continues a sequence, with its low six bits. -/
theorem Pending.accepts_tail (p : Pending) {n : Nat} (hlow : p.low.toNat ≤ n % 64 + 128)
    (hhigh : n % 64 + 128 ≤ p.high.toNat) :
    p.accepts (UInt8.ofNat (n % 64 + 128)) = true ∧
      p.extended (UInt8.ofNat (n % 64 + 128)) = p.value * 64 + n % 64 := by
  have hbyte := toNat_byte (n := n % 64 + 128) (by omega)
  unfold accepts extended
  rw [hbyte, Bool.and_eq_true, decide_eq_true_iff, decide_eq_true_iff, UInt8.le_iff_toNat_le,
    UInt8.le_iff_toNat_le, hbyte]
  exact ⟨⟨hlow, hhigh⟩, by omega⟩

theorem decodeFrom_cons (open? : Option Pending) (b : UInt8) (bytes : List UInt8) :
    decodeFrom open? (b :: bytes) = (step open? b).1 ++ decodeFrom (step open? b).2 bytes := by
  cases open? <;> rfl

/-- A byte that opens a sequence gives no character yet. -/
theorem decodeFrom_opens {b : UInt8} {p : Pending} (h : lead b = .opens p) (bytes : List UInt8) :
    decodeFrom none (b :: bytes) = decodeFrom (some p) bytes := by
  have hstep : step none b = ([], some p) := by simp [step, start, h]
  rw [decodeFrom_cons, hstep, List.nil_append]

/-- **A byte in the middle of a sequence** adds six bits. -/
theorem decodeFrom_continues {p : Pending} {n : Nat} (hlow : p.low.toNat ≤ n % 64 + 128)
    (hhigh : n % 64 + 128 ≤ p.high.toNat) (hmissing : 1 < p.missing) (bytes : List UInt8) :
    decodeFrom (some p) (UInt8.ofNat (n % 64 + 128) :: bytes) =
      decodeFrom (some ⟨p.value * 64 + n % 64, p.missing - 1, 0x80, 0xbf⟩) bytes := by
  obtain ⟨haccepts, hextended⟩ := p.accepts_tail hlow hhigh
  rw [decodeFrom_cons, step, if_pos haccepts, if_neg (by omega), hextended, List.nil_append]

/-- **The last byte of a sequence** gives its character. -/
theorem decodeFrom_ends {p : Pending} {n : Nat} (hlow : p.low.toNat ≤ n % 64 + 128)
    (hhigh : n % 64 + 128 ≤ p.high.toNat) (hmissing : p.missing = 1) (bytes : List UInt8) :
    decodeFrom (some p) (UInt8.ofNat (n % 64 + 128) :: bytes) =
      Char.ofNat (p.value * 64 + n % 64) :: decodeFrom none bytes := by
  obtain ⟨haccepts, hextended⟩ := p.accepts_tail hlow hhigh
  rw [decodeFrom_cons, step, if_pos haccepts, if_pos (by omega), hextended]
  rfl

/-! ## Lead bytes -/

theorem lead_single {n : Nat} (h : n ≤ 127) : lead (UInt8.ofNat n) = .single (Char.ofNat n) := by
  have hbyte := toNat_byte (n := n) (by omega)
  simp [lead, UInt8.lt_iff_toNat_lt, hbyte, show n < 128 by omega]

theorem lead_two {n : Nat} (hlow : 2 ≤ n) (hhigh : n < 32) :
    lead (UInt8.ofNat (n + 192)) = .opens ⟨n, 1, 0x80, 0xbf⟩ := by
  interval_cases n <;> rfl

/-- The lower bound behind a lead byte keeps out overlong forms, the upper one surrogates. -/
theorem lead_three {n : Nat} (h : n < 16) : lead (UInt8.ofNat (n + 224)) =
    .opens ⟨n, 2, if n = 0 then 0xa0 else 0x80, if n = 13 then 0x9f else 0xbf⟩ := by
  interval_cases n <;> rfl

/-- The lower bound behind a lead byte keeps out overlong forms, the upper one what is no code
point. -/
theorem lead_four {n : Nat} (h : n < 5) : lead (UInt8.ofNat (n + 240)) =
    .opens ⟨n, 3, if n = 0 then 0x90 else 0x80, if n = 4 then 0x8f else 0xbf⟩ := by
  interval_cases n <;> rfl

/-! ## One character -/

/-- **The bytes of a character are read as that character.** -/
theorem decodeFrom_utf8EncodeChar (c : Char) (bytes : List UInt8) :
    decodeFrom none (String.utf8EncodeChar c ++ bytes) = c :: decodeFrom none bytes := by
  have hvalid : c.val.toNat < 0xd800 ∨ 0xdfff < c.val.toNat ∧ c.val.toNat < 0x110000 := c.valid
  have hchar : Char.ofNat c.val.toNat = c := Char.ofNat_toNat c
  unfold String.utf8EncodeChar
  generalize c.val.toNat = v at hvalid hchar
  dsimp only
  split_ifs with h1 h2 h3
  · simp only [List.cons_append, List.nil_append, decodeFrom_cons, step, start, lead_single h1,
      hchar]
  · have hlead := lead_two (n := v / 64 % 32) (by omega) (by omega)
    simp only [List.cons_append, List.nil_append]
    rw [decodeFrom_opens hlead, decodeFrom_ends (by simp) (by simp; omega) rfl,
      show v / 64 % 32 * 64 + v % 64 = v by omega, hchar]
  · have hlead := lead_three (n := v / 4096 % 16) (by omega)
    have hlow : (if v / 4096 % 16 = 0 then (0xa0 : UInt8) else 0x80).toNat ≤
        v / 64 % 64 + 128 := by
      split_ifs
      · simp; omega
      · simp
    have hhigh : v / 64 % 64 + 128 ≤
        (if v / 4096 % 16 = 13 then (0x9f : UInt8) else 0xbf).toNat := by
      split_ifs
      · simp; omega
      · simp; omega
    simp only [List.cons_append, List.nil_append]
    rw [decodeFrom_opens hlead, decodeFrom_continues hlow hhigh (by simp),
      decodeFrom_ends (by simp) (by simp; omega) rfl]
    simp only
    rw [show (v / 4096 % 16 * 64 + v / 64 % 64) * 64 + v % 64 = v by omega, hchar]
  · have hlead := lead_four (n := v / 262144 % 8) (by omega)
    have hlow : (if v / 262144 % 8 = 0 then (0x90 : UInt8) else 0x80).toNat ≤
        v / 4096 % 64 + 128 := by
      split_ifs
      · simp; omega
      · simp
    have hhigh : v / 4096 % 64 + 128 ≤
        (if v / 262144 % 8 = 4 then (0x8f : UInt8) else 0xbf).toNat := by
      split_ifs
      · simp; omega
      · simp; omega
    simp only [List.cons_append, List.nil_append]
    rw [decodeFrom_opens hlead, decodeFrom_continues hlow hhigh (by simp),
      decodeFrom_continues (by simp) (by simp; omega) (by simp),
      decodeFrom_ends (by simp) (by simp; omega) rfl]
    simp only
    rw [show ((v / 262144 % 8 * 64 + v / 4096 % 64) * 64 + v / 64 % 64) * 64 + v % 64 = v by omega,
      hchar]

/-- Only the character zero has a zero byte. -/
theorem zero_notMem_utf8EncodeChar {c : Char} (h : c ≠ '\x00') :
    (0 : UInt8) ∉ String.utf8EncodeChar c := by
  have hpos : c.val.toNat ≠ 0 := fun h0 => h (Char.toNat_inj.1 h0)
  have hvalid : c.val.toNat < 0xd800 ∨ 0xdfff < c.val.toNat ∧ c.val.toNat < 0x110000 := c.valid
  have hbyte (n : Nat) (hn : 0 < n) (hn' : n < 256) : (0 : UInt8) ≠ UInt8.ofNat n := by
    intro h0
    have := congrArg UInt8.toNat h0
    rw [toNat_byte hn'] at this
    simp at this
    omega
  unfold String.utf8EncodeChar
  generalize c.val.toNat = v at hpos hvalid
  dsimp only
  split_ifs with h1 h2 h3 <;> simp only [List.mem_cons, List.not_mem_nil, or_false, not_or]
  · exact hbyte _ (by omega) (by omega)
  · exact ⟨hbyte _ (by omega) (by omega), hbyte _ (by omega) (by omega)⟩
  · exact ⟨hbyte _ (by omega) (by omega), hbyte _ (by omega) (by omega),
      hbyte _ (by omega) (by omega)⟩
  · exact ⟨hbyte _ (by omega) (by omega), hbyte _ (by omega) (by omega),
      hbyte _ (by omega) (by omega), hbyte _ (by omega) (by omega)⟩

/-! ## Texts -/

theorem decodeFrom_flatMap (cs : List Char) :
    decodeFrom none (cs.flatMap String.utf8EncodeChar) = cs := by
  induction cs with
  | nil => rfl
  | cons c cs ih => rw [List.flatMap_cons, decodeFrom_utf8EncodeChar, ih]

/-- **A text is read back from its bytes.** -/
theorem decode_encode (text : String) : decode (encode text) = text := by
  rw [decode, encode, decodeFrom_flatMap, String.ofList_toList]

/-- **A text without the character zero has no zero byte.** -/
theorem zero_notMem_encode {text : String} (h : '\x00' ∉ text.toList) :
    (0 : UInt8) ∉ encode text := by
  intro hmem
  obtain ⟨c, hc, hzero⟩ := List.mem_flatMap.1 hmem
  exact zero_notMem_utf8EncodeChar (fun he => h (he ▸ hc)) hzero

end ArcCoverage.Utf8
