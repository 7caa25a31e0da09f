/-
# The same bytes elsewhere in a file

A cursor knows its offset, but only failures mention it: what is read depends on the byte order and on
the bytes that are left. So bytes that stand at another place, behind others, are read alike:

| of two cursors with the same bytes | lemma |
| --- | --- |
| a word, a counter, a text | `Read.alike_word`, `Read.alike_counter`, `Read.alike_string` |
| the next record | `Record.alike_next` |
| all records | `Record.alike_all` |

`ReadsAlike` compares two reads and goes on behind both of them (`ReadsAlike.bind`). Its values need not
be equal: the payloads of records know their offsets too, and are only `Cursor.Alike`. Steps over records
that are alike lead to states that correspond (`Framing.run_alike`), with a failure in both runs or in
neither.
-/
import ArcCoverage.Profile.Basic
import Mathlib.Data.List.Forall2
import Mathlib.Data.Option.Defs

namespace ArcCoverage

/-! ## Outcomes that correspond -/

/-- **Both fail, or both succeed** with values that correspond. -/
inductive Corresponds {ε α : Type} (V : α → α → Prop) : Except ε α → Except ε α → Prop
  | ok {a a' : α} (h : V a a') : Corresponds V (.ok a) (.ok a')
  | error (e e' : ε) : Corresponds V (.error e) (.error e')

theorem corresponds_self {ε α : Type} (x : Except ε α) : Corresponds (· = ·) x x := by
  cases x with
  | ok a => exact .ok rfl
  | error e => exact .error e e

theorem Corresponds.bind {ε α β : Type} {V : α → α → Prop} {W : β → β → Prop} {x x' : Except ε α}
    {f f' : α → Except ε β} (h : Corresponds V x x')
    (hf : ∀ a a', V a a' → Corresponds W (f a) (f' a')) : Corresponds W (x >>= f) (x' >>= f') := by
  cases h with
  | ok h => exact hf _ _ h
  | error e e' => exact .error e e'

/-- **The same bytes are left,** whatever stands before them. -/
structure Cursor.Alike (c c' : Cursor) : Prop where
  order : c.order = c'.order
  rest : c.rest = c'.rest

/-- Both reads fail, or both succeed with values that correspond and the same bytes left. -/
inductive SameOutcome {ε α : Type} (V : α → α → Prop) :
    EStateM.Result ε Cursor α → EStateM.Result ε Cursor α → Prop
  | ok {a a' : α} {c c' : Cursor} (h : V a a') (hc : c.Alike c') :
      SameOutcome V (.ok a c) (.ok a' c')
  | error (e e' : ε) (c c' : Cursor) : SameOutcome V (.error e c) (.error e' c')

/-- **Reads that are alike:** with the same bytes left, they have the same outcome. -/
def ReadsAlike {ε α : Type} (V : α → α → Prop) (x y : EStateM ε Cursor α) : Prop :=
  ∀ c c', c.Alike c' → SameOutcome V (x c) (y c')

section ReadsAlike

variable {ε α β : Type} {V : α → α → Prop} {W : β → β → Prop} {x y : EStateM ε Cursor α}

theorem readsAlike_pure {a a' : α} (h : V a a') :
    ReadsAlike V (pure a : EStateM ε Cursor α) (pure a') :=
  fun _ _ hc => .ok h hc

theorem readsAlike_throw (e e' : ε) : ReadsAlike V (throw e : EStateM ε Cursor α) (throw e') :=
  fun c c' _ => .error e e' c c'

/-- **Two reads that are alike go on alike.** -/
theorem ReadsAlike.bind {f g : α → EStateM ε Cursor β} (h : ReadsAlike V x y)
    (hf : ∀ a a', V a a' → ReadsAlike W (f a) (g a')) : ReadsAlike W (x >>= f) (y >>= g) := by
  intro c c' hc
  have hfirst := h c c' hc
  change SameOutcome W (EStateM.bind x f c) (EStateM.bind y g c')
  unfold EStateM.bind
  generalize x c = first, y c' = first' at hfirst ⊢
  cases hfirst with
  | ok ha hd => exact hf _ _ ha _ _ hd
  | error e e' d d' => exact .error e e' d d'

/-- Behind equal values. -/
theorem ReadsAlike.then {f : α → EStateM ε Cursor β} (h : ReadsAlike (· = ·) x y)
    (hf : ∀ a, ReadsAlike W (f a) (f a)) : ReadsAlike W (x >>= f) (y >>= f) :=
  h.bind fun a _ ha => ha ▸ hf a

end ReadsAlike

/-! ## Reads -/

namespace Read

theorem alike_bytes (n : Nat) : ReadsAlike (· = ·) (bytes n) (bytes n) := by
  rintro ⟨order, position, rest⟩ ⟨_, position', _⟩ ⟨rfl, rfl⟩
  unfold bytes
  dsimp only
  split_ifs
  · exact .ok rfl ⟨rfl, rfl⟩
  · exact .error _ _ _ _

theorem alike_word : ReadsAlike (· = ·) word word := by
  intro c c' hc
  have hbytes := alike_bytes 4 c c' hc
  unfold word
  generalize bytes 4 c = quad, bytes 4 c' = quad' at hbytes ⊢
  cases hbytes with
  | ok hquad hd => exact .ok (by rw [hquad, hc.order]) hd
  | error e e' d d' => exact .error e e' d d'

theorem alike_counter : ReadsAlike (· = ·) counter counter :=
  alike_word.then fun _ => alike_word.then fun _ => readsAlike_pure rfl

theorem alike_string : ReadsAlike (· = ·) string string :=
  alike_word.then fun _ => (alike_bytes _).then fun _ => readsAlike_pure rfl

/-- A record's payload is found at another place as well. -/
theorem alike_record (words : UInt32) : ReadsAlike Cursor.Alike (record words) (record words) := by
  intro c c' hc
  have hbytes := alike_bytes (words.toNat * 4) c c' hc
  unfold record
  generalize bytes (words.toNat * 4) c = slice, bytes (words.toNat * 4) c' = slice' at hbytes ⊢
  cases hbytes with
  | ok hslice hd => exact .ok ⟨hc.order, hslice⟩ hd
  | error e e' d d' => exact .error e e' d d'

theorem alike_replicate {α : Type} {read : Read α} (h : ReadsAlike (· = ·) read read) (n : Nat) :
    ReadsAlike (· = ·) (replicate read n) (replicate read n) := by
  induction n with
  | zero => exact readsAlike_pure rfl
  | succ n ih => exact h.then fun _ => ih.then fun _ => readsAlike_pure rfl

end Read

namespace Decode

variable {α : Type}

/-- A plain read within a decoder. -/
theorem alike_ofRead {read : Read α} (h : ReadsAlike (· = ·) read read) :
    ReadsAlike (· = ·) (monadLift read : Decode α) (monadLift read) := by
  intro c c' hc
  have hread := h c c' hc
  change SameOutcome (· = ·) (ofRead read c) (ofRead read c')
  unfold ofRead
  generalize read c = found, read c' = found' at hread ⊢
  cases hread with
  | ok ha hd => exact .ok ha hd
  | error e e' d d' => exact .error (ReadError.shortage e) (ReadError.shortage e') d d'

theorem alike_require (condition : Bool) (e e' : ReadError) :
    ReadsAlike (· = ·) (require condition e) (require condition e') := by
  unfold require
  split_ifs
  · exact readsAlike_pure rfl
  · exact readsAlike_throw e e'

/-- **What decoding gives** does not depend on the place. -/
theorem alike_result {V : α → α → Prop} {x y : Decode α} (h : ReadsAlike V x y) {c c' : Cursor}
    (hc : c.Alike c') : Corresponds V (result x c) (result y c') := by
  have hread := h c c' hc
  unfold result
  generalize x c = found, y c' = found' at hread ⊢
  cases hread with
  | ok ha hd => exact .ok ha
  | error e e' d d' => exact .error e e'

end Decode

/-! ## Records -/

/-- **The same record** at another place. -/
structure Record.Alike (r r' : Record) : Prop where
  tag : r.tag = r'.tag
  words : r.words = r'.words
  payload : r.payload.Alike r'.payload

/-- The same records at other places, and a shortage behind them in both or in neither. -/
structure Framing.Alike (f f' : Framing) : Prop where
  records : List.Forall₂ Record.Alike f.records f'.records
  shortage : f.shortage = none ↔ f'.shortage = none

namespace Record

theorem alike_next : ReadsAlike (Option.Rel Record.Alike) next next := by
  intro c c' hc
  -- Only the offset that is noted differs between the two reads.
  have hread (n n' : Nat) : ReadsAlike (Option.Rel Record.Alike)
      (do
        let tag ← Read.word
        if tag = 0 then return none
        let words ← Read.word
        let payload ← Read.record words
        return some { offset := n, tag, words, payload })
      (do
        let tag ← Read.word
        if tag = 0 then return none
        let words ← Read.word
        let payload ← Read.record words
        return some { offset := n', tag, words, payload }) := by
    refine Read.alike_word.bind fun tag _ htag => htag ▸ ?_
    split_ifs
    · exact readsAlike_pure .none
    · refine Read.alike_word.bind fun words _ hwords => hwords ▸ ?_
      refine (Read.alike_record words).bind fun payload payload' hpayload => ?_
      exact readsAlike_pure (.some ⟨rfl, rfl, hpayload⟩)
  exact hread c.position c'.position c c' hc

theorem alike_collect (fuel : Nat) {c c' : Cursor} (h : c.Alike c') :
    (collect fuel c).Alike (collect fuel c') := by
  induction fuel generalizing c c' with
  | zero => exact ⟨.nil, Iff.rfl⟩
  | succ fuel ih =>
    have hnext := alike_next c c' h
    rw [collect, collect, Cursor.atEnd, Cursor.atEnd, h.rest]
    split_ifs
    · exact ⟨.nil, Iff.rfl⟩
    · generalize next c = found, next c' = found' at hnext ⊢
      cases hnext with
      | error e e' d d' => exact ⟨.nil, by simp⟩
      | ok hfound hd =>
        cases hfound with
        | none => exact ⟨.nil, Iff.rfl⟩
        | some hr =>
          have hrest := ih hd
          exact ⟨.cons hr hrest.records, hrest.shortage⟩

/-- **The same bytes hold the same records.** -/
theorem alike_all {c c' : Cursor} (h : c.Alike c') : (all c).Alike (all c') := by
  rw [all, all, h.rest]
  exact alike_collect _ h

end Record

/-! ## Steps over records -/

section Runs

variable {σ : Type} {S : σ → σ → Prop} {step : σ → Record → Except ReadError σ} {s s' : σ}

/-- **Runs that correspond:** their states do, and both failed or neither did. -/
structure SameEnd (S : σ → σ → Prop) (run run' : σ × Option ReadError) : Prop where
  state : S run.1 run'.1
  failure : run.2 = none ↔ run'.2 = none

/-- **Steps that correspond make runs that do.** -/
theorem runSteps_alike
    (hstep : ∀ s s' r r', S s s' → Record.Alike r r' → Corresponds S (step s r) (step s' r'))
    (h : S s s') {rs rs' : List Record} (hrs : List.Forall₂ Record.Alike rs rs') :
    SameEnd S (runSteps step s rs) (runSteps step s' rs') := by
  induction hrs generalizing s s' with
  | nil => exact ⟨h, Iff.rfl⟩
  | @cons r r' rs rs' hr _ ih =>
    have hnext := hstep s s' r r' h hr
    rw [runSteps, runSteps]
    generalize step s r = next, step s' r' = next' at hnext ⊢
    cases hnext with
    | ok hnext => exact ih hnext
    | error e e' => exact ⟨h, by simp⟩

theorem Framing.run_alike
    (hstep : ∀ s s' r r', S s s' → Record.Alike r r' → Corresponds S (step s r) (step s' r'))
    (h : S s s') {f f' : Framing} (hf : f.Alike f') : SameEnd S (f.run step s) (f'.run step s') := by
  have hsteps := runSteps_alike hstep h hf.records
  unfold run
  generalize runSteps step s f.records = steps, runSteps step s' f'.records = steps' at hsteps ⊢
  obtain ⟨t, failure⟩ := steps
  obtain ⟨t', failure'⟩ := steps'
  obtain ⟨hstate, hfailure⟩ := hsteps
  cases failure with
  | some e =>
    cases failure' with
    | some e' => exact ⟨hstate, by simp⟩
    | none => simp at hfailure
  | none =>
    cases failure' with
    | some e' => simp at hfailure
    | none => exact ⟨hstate, by simpa using hf.shortage⟩

end Runs

end ArcCoverage
