/-
# Headers that are accepted

What is wanted of a header is the same for notes and for data: the magic of the kind, a version whose
layout is known, and a stamp (`HasHeader`). Data moreover repeat the version and the stamp of the notes.

| file | opened if |
| --- | --- |
| notes | there are none yet, and they have a header (`Profile.openNotes_eq_ok`) |
| data | there are notes, and they have the header of these (`Profile.openData_eq_ok`) |
-/
import ArcCoverage.Profile.Data
import ArcCoverage.Profile.Notes
import ArcCoverage.Proofs.Format.Boundaries

namespace ArcCoverage

variable {kind : FileKind} {order : ByteOrder} {v : Version} {stamp : UInt32}
  {bytes : List UInt8} {n : Nat} {c : Cursor}

/-- A magic takes four bytes. -/
theorem four_le_length_of_sniff (h : sniff bytes = some (kind, order)) : 4 ≤ bytes.length := by
  by_contra hshort
  have hmagic (kind : FileKind) (order : ByteOrder) : bytes.take 4 ≠ kind.magic order := by
    intro heq
    have hlength := congrArg List.length heq
    rw [List.length_take] at hlength
    have hfour : (kind.magic order).length = 4 := by cases kind <;> cases order <;> rfl
    omega
  simp only [sniff, hmagic, if_false] at h
  cases h

theorem openFile_eq_ok {otherwise : ReadError} : openFile kind otherwise bytes = .ok c ↔
    ∃ order, sniff bytes = some (kind, order) ∧ c = .ofFile order bytes 4 := by
  unfold openFile
  cases hsniff : sniff bytes with
  | none => simp
  | some found =>
    obtain ⟨k, order⟩ := found
    by_cases hk : k = kind
    · subst hk
      simp only [if_true, Except.ok.injEq, Option.some.injEq, Prod.mk.injEq, true_and,
        exists_eq_left']
      exact eq_comm
    · simp [hk]

theorem Decode.version_eq_ok (hn : n ≤ bytes.length) :
    Decode.version (.ofFile order bytes n) = .ok v c ↔
      (wordAt order bytes n).map Version.ofWord = some v ∧ v.isSupported ∧
        c = .ofFile order bytes (n + 4) := by
  constructor
  · intro h
    obtain ⟨word, c₁, hread, h⟩ := EStateM.bind_eq_ok.1 h
    obtain ⟨hword, rfl⟩ := (Read.word_eq_ok hn).1 (Decode.ofRead_eq_ok.1 hread)
    obtain ⟨_, c₂, hrequire, h⟩ := EStateM.bind_eq_ok.1 h
    obtain ⟨hsupported, rfl⟩ := Decode.require_eq_ok.1 hrequire
    obtain ⟨rfl, rfl⟩ := EStateM.pure_eq_ok.1 h
    exact ⟨by rw [hword, Option.map_some], hsupported, rfl⟩
  · rintro ⟨hversion, hsupported, rfl⟩
    obtain ⟨word, hword, rfl⟩ := Option.map_eq_some_iff.1 hversion
    refine EStateM.bind_eq_ok.2
      ⟨word, _, Decode.ofRead_eq_ok.2 ((Read.word_eq_ok hn).2 ⟨hword, rfl⟩), ?_⟩
    refine EStateM.bind_eq_ok.2 ⟨(), _, Decode.require_eq_ok.2 ⟨hsupported, rfl⟩, ?_⟩
    exact EStateM.pure_eq_ok.2 ⟨rfl, rfl⟩

/-- A version and a stamp that were read behind the magic are those of the header. -/
theorem hasHeader_of_reads {c₁ : Cursor} (hmagic : sniff bytes = some (kind, order))
    (hv : Decode.version (.ofFile order bytes 4) = .ok v c₁)
    (hs : (monadLift Read.word : Decode UInt32) c₁ = .ok stamp c) :
    HasHeader kind order v stamp bytes ∧ c = .ofFile order bytes 12 := by
  obtain ⟨hversion, hsupported, rfl⟩ :=
    (Decode.version_eq_ok (four_le_length_of_sniff hmagic)).1 hv
  obtain ⟨word, hword, -⟩ := Option.map_eq_some_iff.1 hversion
  obtain ⟨hstamp, hc⟩ :=
    (Read.word_eq_ok (le_length_of_wordAt hword)).1 (Decode.ofRead_eq_ok.1 hs)
  exact ⟨⟨hmagic, hversion, hsupported, hstamp⟩, hc⟩

/-- The version and the stamp of a header are read behind the magic. -/
theorem HasHeader.reads (h : HasHeader kind order v stamp bytes) :
    Decode.version (.ofFile order bytes 4) = .ok v (.ofFile order bytes 8) ∧
      (monadLift Read.word : Decode UInt32) (.ofFile order bytes 8) =
        .ok stamp (.ofFile order bytes 12) := by
  obtain ⟨word, hword, -⟩ := Option.map_eq_some_iff.1 h.version
  exact ⟨(Decode.version_eq_ok (four_le_length_of_sniff h.magic)).2
      ⟨h.version, h.supported, rfl⟩,
    Decode.ofRead_eq_ok.2 ((Read.word_eq_ok (le_length_of_wordAt hword)).2 ⟨h.stamp, rfl⟩)⟩

namespace Profile

variable {p : Profile}

/-- **Notes are opened if they have a header.** -/
theorem openNotes_eq_ok : p.openNotes bytes = .ok ((v, stamp), c) ↔
    p.version = none ∧ ∃ order, HasHeader .notes order v stamp bytes ∧
      c = .ofFile order bytes 12 := by
  constructor
  · intro h
    unfold openNotes at h
    split_ifs at h with hloaded
    · cases h
    obtain ⟨c₁, hopen, h⟩ := Except.bind_eq_ok.1 h
    obtain ⟨order, hmagic, rfl⟩ := openFile_eq_ok.1 hopen
    cases hread : notesHeader (.ofFile order bytes 4) with
    | error e c₂ =>
      rw [hread] at h
      cases h
    | ok header c₂ =>
      rw [hread] at h
      obtain ⟨rfl, rfl⟩ := Prod.mk.inj (Except.ok.inj h)
      obtain ⟨w, c₃, hversion, hread⟩ := EStateM.bind_eq_ok.1 hread
      obtain ⟨t, c₄, hstamp, hread⟩ := EStateM.bind_eq_ok.1 hread
      obtain ⟨hpair, rfl⟩ := EStateM.pure_eq_ok.1 hread
      obtain ⟨rfl, rfl⟩ := Prod.mk.inj hpair
      exact ⟨Option.not_isSome_iff_eq_none.1 hloaded, order,
        hasHeader_of_reads hmagic hversion hstamp⟩
  · rintro ⟨hp, order, hheader, rfl⟩
    have hopen : openFile .notes .notNotes bytes = .ok (.ofFile order bytes 4) :=
      openFile_eq_ok.2 ⟨order, hheader.magic, rfl⟩
    have hread : notesHeader (.ofFile order bytes 4) = .ok (v, stamp) (.ofFile order bytes 12) :=
      EStateM.bind_eq_ok.2 ⟨v, _, hheader.reads.1,
        EStateM.bind_eq_ok.2 ⟨stamp, _, hheader.reads.2, EStateM.pure_eq_ok.2 ⟨rfl, rfl⟩⟩⟩
    simp only [openNotes, hp, hopen, bind, Except.bind, hread]
    rfl

/-- **Data are opened if they have the header of the notes.** -/
theorem openData_eq_ok : p.openData bytes = .ok (v, c) ↔
    p.version = some v ∧ ∃ order, HasHeader .data order v p.stamp bytes ∧
      c = .ofFile order bytes 12 := by
  constructor
  · intro h
    unfold openData at h
    cases hp : p.version with
    | none =>
      rw [hp] at h
      cases h
    | some w =>
      rw [hp] at h
      obtain ⟨c₁, hopen, h⟩ := Except.bind_eq_ok.1 h
      obtain ⟨order, hmagic, rfl⟩ := openFile_eq_ok.1 hopen
      cases hread : p.dataHeader w (.ofFile order bytes 4) with
      | error e c₂ =>
        rw [hread] at h
        cases h
      | ok header c₂ =>
        rw [hread] at h
        obtain ⟨rfl, rfl⟩ := Prod.mk.inj (Except.ok.inj h)
        obtain ⟨w', c₃, hversion, hrest⟩ := EStateM.bind_eq_ok.1 hread
        obtain ⟨_, c₄, hrequire, hstamped⟩ := EStateM.bind_eq_ok.1 hrest
        obtain ⟨t, c₅, hstamp, hlast⟩ := EStateM.bind_eq_ok.1 hstamped
        obtain ⟨hsame, rfl⟩ := Decode.require_eq_ok.1 hrequire
        obtain ⟨hsame', rfl⟩ := Decode.require_eq_ok.1 hlast
        obtain rfl := beq_iff_eq.1 hsame
        obtain rfl := beq_iff_eq.1 hsame'
        exact ⟨rfl, order, hasHeader_of_reads hmagic hversion hstamp⟩
  · rintro ⟨hp, order, hheader, rfl⟩
    have hopen : openFile .data .notData bytes = .ok (.ofFile order bytes 4) :=
      openFile_eq_ok.2 ⟨order, hheader.magic, rfl⟩
    have hread : p.dataHeader v (.ofFile order bytes 4) = .ok () (.ofFile order bytes 12) := by
      refine EStateM.bind_eq_ok.2 ⟨v, _, hheader.reads.1, ?_⟩
      refine EStateM.bind_eq_ok.2
        ⟨(), _, Decode.require_eq_ok.2 ⟨beq_self_eq_true v, rfl⟩, ?_⟩
      refine EStateM.bind_eq_ok.2 ⟨p.stamp, _, hheader.reads.2, ?_⟩
      exact Decode.require_eq_ok.2 ⟨beq_self_eq_true p.stamp, rfl⟩
    simp only [openData, hp, hopen, bind, Except.bind, hread]
    rfl

end Profile

end ArcCoverage
