/-
# Bytes that spell a value

Some bytes spell a value for a read if it takes them as the value, no matter what stands behind them,
and runs short wherever they are cut (`Spells`). Whether something is read back and whether a file that
ends too early is noticed are thus settled together, and one read after another:

| read | bytes | lemma |
| --- | --- | --- |
| a word | its four bytes | `Read.spells_word` |
| a text | the number of its words, its bytes, zero bytes up to whole words | `PaddedText.spells` |
| two reads, the second behind the first | the bytes of both | `Spells.bind` |

A text may have any number of zero bytes behind it that fills whole words, also none (`PaddedText`). A
draft always writes some.
-/
import ArcCoverage.Proofs.Format.Drafts

namespace ArcCoverage

/-! ## One read behind another -/

namespace EStateM

variable {ε σ α β : Type} {x y : EStateM ε σ α} {f g : α → EStateM ε σ β} {s s' : σ} {a : α} {e : ε}

/-- A read that succeeds is followed by what comes behind it. -/
theorem bind_of_ok (h : x s = .ok a s') : (x >>= f) s = f a s' := by
  change EStateM.bind x f s = _
  rw [EStateM.bind, h]

/-- A read that fails keeps what comes behind it from being read. -/
theorem bind_eq_error (h : x s = .error e s') : (x >>= f) s = .error e s' := by
  change EStateM.bind x f s = _
  rw [EStateM.bind, h]

/-- What is read behind a read only matters where that read leads. -/
theorem bind_congr (h : ∀ a s', x s = .ok a s' → f a s' = g a s') : (x >>= f) s = (x >>= g) s := by
  cases hx : x s with
  | ok a s' => rw [bind_of_ok hx, bind_of_ok hx, h a s' hx]
  | error e s' => rw [bind_eq_error hx, bind_eq_error hx]

theorem bind_congr_left (h : x s = y s) : (x >>= f) s = (y >>= f) s := by
  cases hy : y s with
  | ok a s' => rw [bind_of_ok (h.trans hy), bind_of_ok hy]
  | error e s' => rw [bind_eq_error (h.trans hy), bind_eq_error hy]

end EStateM

/-! ## Spelled values -/

/-- **Some bytes spell a value for a read:** it takes them as the value, whatever stands behind them, and
runs short where they are cut. -/
structure Spells {ε α : Type} (short : Shortage → ε) (order : ByteOrder) (x : EStateM ε Cursor α)
    (bytes : List UInt8) (a : α) : Prop where
  whole : ∀ position rest,
    x ⟨order, position, bytes ++ rest⟩ = .ok a ⟨order, position + bytes.length, rest⟩
  cut : ∀ position n, n < bytes.length →
    ∃ s c, x ⟨order, position, bytes.take n⟩ = .error (short s) c

section Spells

variable {ε α β : Type} {short : Shortage → ε} {order : ByteOrder} {x : EStateM ε Cursor α}
  {bytes bytes' : List UInt8} {a : α} {b : β}

theorem spells_pure (a : α) : Spells short order (pure a) [] a where
  whole _ _ := EStateM.pure_eq_ok.2 ⟨rfl, rfl⟩
  cut _ _ hn := absurd hn (Nat.not_lt_zero _)

/-- **One read behind another.** -/
theorem Spells.bind {f : α → EStateM ε Cursor β} (h : Spells short order x bytes a)
    (hf : Spells short order (f a) bytes' b) : Spells short order (x >>= f) (bytes ++ bytes') b where
  whole position rest := by
    rw [List.append_assoc, EStateM.bind_of_ok (h.whole position _), hf.whole, List.length_append,
      Nat.add_assoc]
  cut position n hn := by
    rw [List.length_append] at hn
    by_cases hfirst : n < bytes.length
    · obtain ⟨s, c, hcut⟩ := h.cut position n hfirst
      refine ⟨s, c, EStateM.bind_eq_error ?_⟩
      rw [List.take_append_of_le_length (Nat.le_of_lt hfirst), hcut]
    · -- the first read is whole, and the cut is within the second
      obtain ⟨s, c, hcut⟩ := hf.cut (position + bytes.length) (n - bytes.length) (by omega)
      refine ⟨s, c, ?_⟩
      rw [List.take_append, List.take_of_length_le (by omega), EStateM.bind_of_ok (h.whole position _)]
      exact hcut

/-- What is made of a value takes no bytes. -/
theorem Spells.map {g : α → β} (h : Spells short order x bytes a) :
    Spells short order (x >>= fun a => pure (g a)) bytes (g a) := by
  have hmap := h.bind (f := fun a => pure (g a)) (spells_pure (g a))
  rwa [List.append_nil] at hmap

end Spells

/-! ## Plain reads -/

namespace Read

variable {order : ByteOrder}

theorem spells_bytes {n : Nat} {slice : List UInt8} (h : slice.length = n) :
    Spells id order (bytes n) slice slice where
  whole position rest := by rw [bytes_append h, h]
  cut position k hk := by
    refine ⟨⟨position, n⟩, _, if_neg ?_⟩
    rw [List.length_take]
    omega

/-- **A word is spelled by its four bytes.** -/
theorem spells_word (w : UInt32) : Spells id order word (order.encode w) w where
  whole position rest := by rw [word_encode, order.length_encode]
  cut position n hn := by
    have hshort : ¬ 4 ≤ ((order.encode w).take n).length := by
      rw [order.length_encode] at hn
      rw [List.length_take]
      omega
    refine ⟨⟨position, 4⟩, ⟨order, position, (order.encode w).take n⟩, ?_⟩
    rw [word, bytes, if_neg hshort]
    rfl

end Read

namespace Decode

variable {α : Type} {order : ByteOrder} {bytes : List UInt8} {a : α}

theorem spells_ofRead {read : Read α} (h : Spells id order read bytes a) :
    Spells ReadError.shortage order (monadLift read : Decode α) bytes a where
  whole position rest := ofRead_eq_ok.2 (h.whole position rest)
  cut position n hn := by
    obtain ⟨s, c, hcut⟩ := h.cut position n hn
    refine ⟨s, c, ?_⟩
    change ofRead read _ = _
    rw [ofRead, hcut]
    rfl

theorem spells_require {condition : Bool} (h : condition = true) (otherwise : ReadError) :
    Spells ReadError.shortage order (require condition otherwise) [] () := by
  rw [require, if_pos h]
  exact spells_pure ()

end Decode

/-! ## Padded texts -/

/-- **A text with zero bytes behind it** up to whole words. -/
structure PaddedText where
  text : String
  /-- The number of zero bytes. -/
  padding : Nat
  /-- The number of words that hold both. -/
  words : UInt32
  zero_notMem : '\x00' ∉ text.toList
  length_eq : (Utf8.encode text).length + padding = words.toNat * 4

namespace PaddedText

/-- The bytes of the text: its number of words, and these. -/
def encode (order : ByteOrder) (t : PaddedText) : List UInt8 :=
  order.encode t.words ++ (Utf8.encode t.text ++ List.replicate t.padding 0)

/-- **A padded text is spelled by its bytes,** however many of them are padding. -/
theorem spells (order : ByteOrder) (t : PaddedText) :
    Spells id order Read.string (t.encode order) t.text := by
  have hlength : (Utf8.encode t.text ++ List.replicate t.padding 0).length = t.words.toNat * 4 := by
    rw [List.length_append, List.length_replicate, t.length_eq]
  have hdecoded : Utf8.decode ((Utf8.encode t.text ++ List.replicate t.padding 0).takeWhile (· != 0)) =
      t.text := by
    rw [Read.takeWhile_padded (Utf8.zero_notMem_encode t.zero_notMem), Utf8.decode_encode]
  have hpadded := (@Read.spells_bytes order _ _ hlength).map
    (g := fun padded => Utf8.decode (padded.takeWhile (· != 0)))
  rw [hdecoded] at hpadded
  exact (Read.spells_word t.words).bind hpadded

end PaddedText

end ArcCoverage
