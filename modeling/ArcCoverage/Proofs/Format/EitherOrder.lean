/-
# Items in either byte order

The two files of a draft differ almost everywhere: a byte order turns the bytes of words, but not those
of texts. A reader still finds the same in both as long as it takes words for words and texts for texts.
`ReadsItems` says that it does where some items stand, and what is known of the value and of the items
that are left:

| where | a read of | is followed with |
| --- | --- | --- |
| a word stands | a word | `Read.items_word` |
| a text stands | a text | `Read.items_string` |
| no item stands | either, which fails | `Read.items_word_nil`, `Read.items_string_nil` |
| only words stand | words | `Read.items_word_of_onlyWords` |

Nothing is said of a reader that takes a word where a text stands. The writer's texts may have any
characters: what is read of them ends at their first zero byte in either file.
-/
import ArcCoverage.Proofs.Format.Drafts
import ArcCoverage.Proofs.Format.Spelling

namespace ArcCoverage

/-- A cursor where some items stand. -/
def Cursor.ofItems (order : ByteOrder) (position : Nat) (items : List Item) : Cursor :=
  ⟨order, position, items.flatMap (Item.encode order)⟩

/-- **What comes of a read where some items stand,** whatever the byte order: one failure, or one value,
with the same items left at the same place. -/
inductive ReadsItemsAt {ε α : Type} (x : EStateM ε Cursor α) (position : Nat) (items : List Item)
    (Q : α → List Item → Prop) : Prop
  | fails (e : ε) (h : ∀ order, ∃ c, x (.ofItems order position items) = .error e c)
  | takes (a : α) (left : List Item) (position' : Nat) (hleft : Q a left)
    (h : ∀ order, x (.ofItems order position items) = .ok a (.ofItems order position' left))

/-- **A read that finds the same in either byte order** where some items stand, at any place. -/
def ReadsItems {ε α : Type} (x : EStateM ε Cursor α) (items : List Item)
    (Q : α → List Item → Prop) : Prop :=
  ∀ position, ReadsItemsAt x position items Q

section ReadsItems

variable {ε α β : Type} {x : EStateM ε Cursor α} {f : α → EStateM ε Cursor β} {items left : List Item}
  {Q Q' : α → List Item → Prop} {R : β → List Item → Prop} {a : α}

theorem readsItems_pure (h : Q a items) : ReadsItems (pure a : EStateM ε Cursor α) items Q :=
  fun position => .takes a items position h fun _ => rfl

theorem readsItems_throw (e : ε) : ReadsItems (throw e : EStateM ε Cursor α) items Q :=
  fun _ => .fails e fun _ => ⟨_, rfl⟩

theorem ReadsItems.mono (h : ReadsItems x items Q) (hQ : ∀ a left, Q a left → Q' a left) :
    ReadsItems x items Q' := by
  intro position
  cases h position with
  | fails e hfails => exact .fails e hfails
  | takes a left position' hleft htakes => exact .takes a left position' (hQ a left hleft) htakes

/-- **One read behind another,** where the first leaves off. -/
theorem ReadsItems.bind (h : ReadsItems x items Q) (hf : ∀ a left, Q a left → ReadsItems (f a) left R) :
    ReadsItems (x >>= f) items R := by
  intro position
  cases h position with
  | fails e hfails =>
    refine .fails e fun order => ?_
    obtain ⟨c, hfails⟩ := hfails order
    exact ⟨c, EStateM.bind_eq_error hfails⟩
  | takes a left position' hleft htakes =>
    have hbind (order : ByteOrder) : (x >>= f) (.ofItems order position items) =
        f a (.ofItems order position' left) := EStateM.bind_of_ok (htakes order)
    cases hf a left hleft position' with
    | fails e hfails =>
      exact .fails e fun order => (hfails order).imp fun _ hfails => (hbind order).trans hfails
    | takes b left' position'' hleft' htakes' =>
      exact .takes b left' position'' hleft' fun order => (hbind order).trans (htakes' order)

/-- Behind a read whose value is known. -/
theorem ReadsItems.then (h : ReadsItems x items fun b rest => b = a ∧ rest = left)
    (hf : ReadsItems (f a) left R) : ReadsItems (x >>= f) items R :=
  h.bind fun _ _ hknown => by rwa [hknown.1, hknown.2]

end ReadsItems

/-! ## Reads of items -/

/-- Items of which none is a text. -/
def OnlyWords (items : List Item) : Prop := ∀ item ∈ items, ∃ w, item = .word w

namespace OnlyWords

variable {items : List Item} {w : UInt32}

theorem nil : OnlyWords [] := fun _ h => absurd h List.not_mem_nil

theorem cons (h : OnlyWords items) : OnlyWords (.word w :: items) := by
  intro item hitem
  rcases List.mem_cons.1 hitem with rfl | hitem
  · exact ⟨w, rfl⟩
  · exact h item hitem

theorem replicate (n : Nat) (w : UInt32) : OnlyWords (List.replicate n (.word w)) :=
  fun _ hitem => ⟨w, List.eq_of_mem_replicate hitem⟩

theorem flatMap {α : Type} {f : α → List Item} (h : ∀ a, OnlyWords (f a)) (as : List α) :
    OnlyWords (as.flatMap f) := by
  intro item hitem
  obtain ⟨a, -, hitem⟩ := List.mem_flatMap.1 hitem
  exact h a item hitem

end OnlyWords

/-- Either byte order spells the same number of bytes. -/
theorem Cursor.length_rest_ofItems (order order' : ByteOrder) (position : Nat) (items : List Item) :
    (Cursor.ofItems order position items).rest.length =
      (Cursor.ofItems order' position items).rest.length := by
  simp only [ofItems, List.length_flatMap, Item.length_encode]

namespace Read

variable {items : List Item} {α : Type}

theorem items_word (w : UInt32) (items : List Item) :
    ReadsItems word (.word w :: items) fun a left => a = w ∧ left = items :=
  fun position => .takes w items (position + 4) ⟨rfl, rfl⟩ fun _ => word_item w

/-- Where nothing stands, there is no word. -/
theorem items_word_nil {Q : UInt32 → List Item → Prop} : ReadsItems word [] Q :=
  fun position => .fails ⟨position, 4⟩ fun order => ⟨⟨order, position, []⟩, rfl⟩

/-- **Words are read** where there are only words, until none is left. -/
theorem items_word_of_onlyWords (h : OnlyWords items) :
    ReadsItems word items fun _ left => OnlyWords left := by
  cases items with
  | nil => exact items_word_nil
  | cons item items =>
    obtain ⟨w, rfl⟩ := h item List.mem_cons_self
    refine (items_word w items).mono ?_
    rintro _ _ ⟨-, rfl⟩
    exact fun item hitem => h item (List.mem_cons_of_mem _ hitem)

theorem items_counter_of_onlyWords (h : OnlyWords items) :
    ReadsItems counter items fun _ left => OnlyWords left :=
  (items_word_of_onlyWords h).bind fun _ _ h => (items_word_of_onlyWords h).bind fun _ _ h =>
    readsItems_pure h

theorem items_replicate_of_onlyWords {read : Read α}
    (hread : ∀ items, OnlyWords items → ReadsItems read items fun _ left => OnlyWords left)
    (h : OnlyWords items) (n : Nat) :
    ReadsItems (replicate read n) items fun _ left => OnlyWords left := by
  induction n generalizing items with
  | zero => exact readsItems_pure h
  | succ n ih => exact (hread items h).bind fun _ _ h => (ih h).bind fun _ _ h => readsItems_pure h

/-- A text is read up to its first zero byte, which stands in the same place in either byte order. -/
theorem items_string {s : String} (hwords : (Item.text s).words < UInt32.size) (items : List Item) :
    ReadsItems string (.text s :: items) fun a left => a = Item.beforeZero s ∧ left = items :=
  fun position => .takes (Item.beforeZero s) items (position + 4 * (Item.text s).words) ⟨rfl, rfl⟩
    fun _ => string_encode_beforeZero hwords _

/-- Where nothing stands, there is no text. -/
theorem items_string_nil {Q : String → List Item → Prop} : ReadsItems string [] Q :=
  (items_word_nil (Q := fun _ _ => False)).bind fun _ _ h => h.elim

end Read

namespace Decode

variable {α : Type} {items : List Item} {Q : α → List Item → Prop}

theorem items_ofRead {read : Read α} (h : ReadsItems read items Q) :
    ReadsItems (monadLift read : Decode α) items Q := by
  intro position
  cases h position with
  | fails s hfails =>
    refine .fails (.shortage s) fun order => ?_
    obtain ⟨c, hfails⟩ := hfails order
    refine ⟨c, ?_⟩
    change ofRead read _ = _
    rw [ofRead, hfails]
  | takes a left position' hleft htakes =>
    exact .takes a left position' hleft fun order => ofRead_eq_ok.2 (htakes order)

theorem items_require {condition : Bool} {Q : Unit → List Item → Prop}
    (h : condition = true → Q () items) (otherwise : ReadError) :
    ReadsItems (require condition otherwise) items Q := by
  unfold require
  split_ifs with hcondition
  · exact readsItems_pure (h hcondition)
  · exact readsItems_throw otherwise

theorem items_require_then {condition : Bool} {f : Unit → Decode α}
    (hf : condition = true → ReadsItems (f ()) items Q) (otherwise : ReadError) :
    ReadsItems (require condition otherwise >>= f) items Q :=
  (items_require (Q := fun _ left => condition = true ∧ left = items) (fun h => ⟨h, rfl⟩) otherwise).bind
    fun _ _ hknown => hknown.2 ▸ hf hknown.1

/-- **What decoding gives** is the same in either byte order. -/
theorem result_ofItems {x : Decode α} (h : ReadsItems x items Q) (order order' : ByteOrder)
    (position : Nat) :
    result x (.ofItems order position items) = result x (.ofItems order' position items) := by
  unfold result
  cases h position with
  | fails e hfails =>
    obtain ⟨c, hfails₁⟩ := hfails order
    obtain ⟨c', hfails₂⟩ := hfails order'
    rw [hfails₁, hfails₂]
  | takes a left position' hleft htakes => rw [htakes, htakes]

end Decode

/-! ## Files of items -/

/-- The items that spell a record. -/
def DraftRecord.items (r : DraftRecord) : List Item :=
  .word r.tag :: .word (UInt32.ofNat r.words) :: r.payload

namespace Draft

/-- The draft in a byte order. -/
def inOrder (d : Draft) (order : ByteOrder) : Draft := { d with order }

/-- The items that stand behind the magic. -/
def items (d : Draft) : List Item :=
  .word d.version.toWord :: .word d.stamp :: d.records.flatMap DraftRecord.items

variable {d : Draft}

/-- Records are spelled by their items. -/
theorem flatMap_encode_records (order : ByteOrder) (rs : List DraftRecord) :
    rs.flatMap (DraftRecord.encode order) = (rs.flatMap DraftRecord.items).flatMap (Item.encode order) := by
  rw [List.flatMap_assoc]
  refine List.flatMap_congr fun r _ => ?_
  simp only [DraftRecord.encode, DraftRecord.items, List.flatMap_cons, Item.encode, List.append_assoc]

/-- **A file is its magic and its items.** -/
theorem encode_inOrder (d : Draft) (order : ByteOrder) :
    (d.inOrder order).encode = d.kind.magic order ++ d.items.flatMap (Item.encode order) := by
  simp only [encode, inOrder, items, flatMap_encode_records, List.flatMap_cons, Item.encode,
    List.append_assoc]

/-- The items of a file stand where its magic ends. -/
theorem openFile_encode (d : Draft) (order : ByteOrder) (kind : FileKind) (otherwise : ReadError) :
    openFile kind otherwise (d.inOrder order).encode =
      if d.kind = kind then .ok (.ofItems order 4 d.items) else .error otherwise := by
  have hmagic : (d.kind.magic order).length = 4 := (d.inOrder order).length_magic
  rw [openFile, encode_inOrder, sniff_magic]
  dsimp only
  rw [List.drop_left' hmagic]
  rfl

/-- The records of a file are found wherever its items begin. -/
theorem all_ofItems (htagged : d.Tagged) (hmeasured : d.Measured) (order : ByteOrder) (position : Nat) :
    Record.all (.ofItems order position (d.records.flatMap DraftRecord.items)) =
      ⟨DraftRecord.framedAll order position d.records, none⟩ := by
  rw [Cursor.ofItems, ← flatMap_encode_records]
  exact DraftRecord.collect_encode order position htagged hmeasured
    (DraftRecord.length_le_flatMap order d.records)

end Draft

/-- **Steps that do not see the byte order** make runs that do not. -/
theorem runSteps_framedAll {σ : Type} {step : σ → Record → Except ReadError σ} {rs : List DraftRecord}
    {order order' : ByteOrder}
    (hstep : ∀ r ∈ rs, ∀ s position,
      step s (r.framed order position) = step s (r.framed order' position))
    (position : Nat) (s : σ) :
    runSteps step s (DraftRecord.framedAll order position rs) =
      runSteps step s (DraftRecord.framedAll order' position rs) := by
  induction rs generalizing position s with
  | nil => rfl
  | cons r rs ih =>
    have hrest := ih fun r hr => hstep r (List.mem_cons_of_mem _ hr)
    rw [DraftRecord.framedAll, DraftRecord.framedAll, runSteps, runSteps,
      hstep r List.mem_cons_self s position]
    cases step s (r.framed order' position) with
    | ok next => exact hrest _ next
    | error e => rfl

/-- **Steps over the records of a file** that do not see its byte order. -/
theorem Draft.run_ofItems {d : Draft} {σ : Type} {step : σ → Record → Except ReadError σ}
    (htagged : d.Tagged) (hmeasured : d.Measured) {order order' : ByteOrder}
    (hstep : ∀ r ∈ d.records, ∀ s position,
      step s (r.framed order position) = step s (r.framed order' position)) (position : Nat) (s : σ) :
    (Record.all (.ofItems order position (d.records.flatMap DraftRecord.items))).run step s =
      (Record.all (.ofItems order' position (d.records.flatMap DraftRecord.items))).run step s := by
  rw [all_ofItems htagged hmeasured, all_ofItems htagged hmeasured, Framing.run, Framing.run,
    runSteps_framedAll hstep position s]

end ArcCoverage
