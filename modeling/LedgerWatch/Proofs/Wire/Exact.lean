import LedgerWatch.Proofs.Except
import LedgerWatch.Wire.Format

/-!
# Formats read exactly what they write

A reader undoes its writer, whatever bytes follow, and accepts nothing else: the bytes that it takes
from the front of the data are those that the writer gives for the value read. Every combinator
keeps this, so it holds of a record as soon as it holds of the fields.

A length is written as eight bytes, so a longer list or text has no encoding of its own. What a
value must satisfy to have one is carried along as `fits`.

## Main definitions

- `Wire.FitsLength`: a length that eight bytes can hold
- `Wire.Format.Exact`: the format reads exactly what it writes for the values that fit

## Main results

- `Wire.Format.Exact.pair`, `Wire.Format.Exact.list`, `Wire.Format.Exact.via`: combinators keep it
- `Wire.Format.Exact.decode_eq_ok_iff`: what a whole byte string decodes to
- `Wire.Format.Exact.encode_inj`: values that fit are told apart by their encodings
-/

namespace LedgerWatch

theorem leValue_lt (bs : Bytes) : leValue bs < Nat.pow 256 bs.length := by
  have h : leValue (leBytes bs.length (leValue bs)) = leValue bs := by rw [leBytes_leValue]
  rw [← h, leValue_leBytes]
  exact Nat.mod_lt _ (Nat.pow_pos (by decide))

/-- A byte string decodes to the text that it is the encoding of. -/
theorem Utf8.decode_eq_ok_iff {bs : Bytes} {s : String} :
    Utf8.decode bs = .ok s ↔ bs = Utf8.encode s := by
  constructor
  · intro h
    simp only [Utf8.decode] at h
    split at h
    · next text htext =>
      obtain rfl := Except.ok.inj h
      simp only [String.fromUTF8?, Option.dite_none_right_eq_some, Option.some.injEq] at htext
      obtain ⟨_, rfl⟩ := htext
      rfl
    · cases h
  · rintro rfl
    simp only [Utf8.decode, Utf8.encode, String.toUTF8_eq_toByteArray, String.fromUTF8?]
    rw [dif_pos s.isValidUTF8]
    rfl

namespace Wire

/-- Eight bytes can hold the length. -/
def FitsLength (length : Nat) : Prop := length < UInt64.size

theorem fitsLength_toNat (n : UInt64) : FitsLength n.toNat := n.toNat_lt

theorem takeBytes_eq_ok_iff {n : Nat} {data rest : Bytes} {bs : { bs : Bytes // bs.length = n }} :
    takeBytes n data = .ok (bs, rest) ↔ data = bs.val ++ rest := by
  induction n generalizing data rest with
  | zero =>
    obtain ⟨bs, hbs⟩ := bs
    obtain rfl := List.length_eq_zero_iff.mp hbs
    simp [takeBytes]
  | succ n ih =>
    obtain ⟨_ | ⟨b, bs⟩, hbs⟩ := bs
    · simp at hbs
    cases data with
    | nil => simp [takeBytes]
    | cons d data =>
      have hlength : bs.length = n := by simpa using hbs
      have hrest : takeBytes n data = .ok (⟨bs, hlength⟩, rest) ↔ data = bs ++ rest := ih
      rw [takeBytes, bind_eq_ok_iff]
      constructor
      · rintro ⟨⟨taken, left⟩, htaken, hresult⟩
        simp only [Except.ok.injEq, Prod.mk.injEq, Subtype.mk.injEq, List.cons.injEq] at hresult
        obtain ⟨⟨rfl, rfl⟩, rfl⟩ := hresult
        rw [hrest.mp htaken]
        rfl
      · intro hdata
        obtain ⟨rfl, hleft⟩ := List.cons.inj hdata
        exact ⟨_, hrest.mpr hleft, rfl⟩

namespace Format

variable {α β : Type} {format : Format α} {first : Format α} {second : Format β}
  {fits : α → Prop} {fitsSecond : β → Prop}

/-- Reading gives a value and the bytes after it exactly if the value fits and the data are its
encoding and those bytes. -/
structure Exact (format : Format α) (fits : α → Prop) : Prop where
  read_eq_ok_iff : ∀ {data a rest},
    format.read data = .ok (a, rest) ↔ fits a ∧ data = format.write a ++ rest

/-! ## Whole byte strings -/

/-- A whole byte string decodes to the value that fits and that it is the encoding of. -/
theorem Exact.decode_eq_ok_iff (h : format.Exact fits) {data : Bytes} {a : α} :
    format.decode data = .ok a ↔ fits a ∧ format.encode a = data := by
  rw [decode, bind_eq_ok_iff]
  constructor
  · rintro ⟨⟨a', rest⟩, hread, hresult⟩
    dsimp only at hresult
    split at hresult
    · next hempty =>
      obtain rfl := Except.ok.inj hresult
      obtain ⟨hfits, hdata⟩ := h.read_eq_ok_iff.mp hread
      rw [List.isEmpty_iff.mp hempty, List.append_nil] at hdata
      exact ⟨hfits, hdata.symm⟩
    · cases hresult
  · rintro ⟨hfits, rfl⟩
    exact ⟨(a, []), h.read_eq_ok_iff.mpr ⟨hfits, (List.append_nil _).symm⟩, rfl⟩

/-- Values that fit are told apart by their encodings. -/
theorem Exact.encode_inj (h : format.Exact fits) {a b : α} (ha : fits a) (hb : fits b)
    (heq : format.encode a = format.encode b) : a = b := by
  have hdecode : format.decode (format.encode a) = .ok a := h.decode_eq_ok_iff.mpr ⟨ha, rfl⟩
  rw [h.decode_eq_ok_iff.mpr ⟨hb, heq.symm⟩] at hdecode
  exact (Except.ok.inj hdecode).symm

/-! ## Fields -/

theorem exact_number {width : Nat} {toNat : α → Nat} {ofNat : Nat → α}
    (hlt : ∀ a, toNat a < Nat.pow 256 width) (hback : ∀ a, ofNat (toNat a) = a)
    (hvalue : ∀ n, n < Nat.pow 256 width → toNat (ofNat n) = n) :
    (number width toNat ofNat).Exact fun _ => True where
  read_eq_ok_iff {data a rest} := by
    simp only [number, bind_eq_ok_iff, true_and]
    constructor
    · rintro ⟨⟨⟨bs, hbs⟩, left⟩, htaken, hresult⟩
      simp only [Except.ok.injEq, Prod.mk.injEq] at hresult
      obtain ⟨rfl, rfl⟩ := hresult
      subst hbs
      rw [hvalue _ (leValue_lt bs), leBytes_leValue]
      exact takeBytes_eq_ok_iff.mp htaken
    · rintro rfl
      refine ⟨(⟨leBytes width (toNat a), length_leBytes ..⟩, rest), ?_, ?_⟩
      · exact takeBytes_eq_ok_iff.mpr rfl
      · have hmod : toNat a % Nat.pow 256 width = toNat a := Nat.mod_eq_of_lt (hlt a)
        simp only [leValue_leBytes, hmod, hback]

theorem exact_uint8 : uint8.Exact fun _ => True :=
  exact_number (fun a => a.toNat_lt) (fun _ => UInt8.ofNat_toNat) fun _ => UInt8.toNat_ofNat_of_lt'

theorem exact_uint16 : uint16.Exact fun _ => True :=
  exact_number (fun a => a.toNat_lt) (fun _ => UInt16.ofNat_toNat)
    fun _ => UInt16.toNat_ofNat_of_lt'

theorem exact_uint32 : uint32.Exact fun _ => True :=
  exact_number (fun a => a.toNat_lt) (fun _ => UInt32.ofNat_toNat)
    fun _ => UInt32.toNat_ofNat_of_lt'

theorem exact_uint64 : uint64.Exact fun _ => True :=
  exact_number (fun a => a.toNat_lt) (fun _ => UInt64.ofNat_toNat)
    fun _ => UInt64.toNat_ofNat_of_lt'

theorem exact_hash : hash.Exact fun _ => True where
  read_eq_ok_iff {data h rest} := by
    simp only [hash, bind_eq_ok_iff, true_and]
    constructor
    · rintro ⟨⟨⟨bs, hbs⟩, left⟩, htaken, hresult⟩
      simp only [Except.ok.injEq, Prod.mk.injEq] at hresult
      obtain ⟨rfl, rfl⟩ := hresult
      simpa using takeBytes_eq_ok_iff.mp htaken
    · rintro rfl
      exact ⟨(⟨h.toList, h.length_toList⟩, rest), takeBytes_eq_ok_iff.mpr rfl, rfl⟩

/-! ## Combinators -/

/-- The condition may be put in other words. -/
theorem Exact.of_iff (h : format.Exact fits) {fits' : α → Prop} (hiff : ∀ a, fits' a ↔ fits a) :
    format.Exact fits' where
  read_eq_ok_iff := by simp only [hiff, h.read_eq_ok_iff, implies_true]

theorem Exact.via (h : format.Exact fits) {view : β → α} {back : α → β}
    (hback : ∀ b, back (view b) = b) (hview : ∀ a, view (back a) = a) :
    (format.via view back).Exact fun b => fits (view b) where
  read_eq_ok_iff {data b rest} := by
    simp only [Format.via, bind_eq_ok_iff]
    constructor
    · rintro ⟨⟨a, left⟩, hread, hresult⟩
      simp only [Except.ok.injEq, Prod.mk.injEq] at hresult
      obtain ⟨rfl, rfl⟩ := hresult
      rw [hview]
      exact h.read_eq_ok_iff.mp hread
    · intro hdata
      exact ⟨(view b, rest), h.read_eq_ok_iff.mpr hdata, by simp only [hback]⟩

theorem Exact.pair (hfirst : first.Exact fits) (hsecond : second.Exact fitsSecond) :
    (first.pair second).Exact fun ab => fits ab.1 ∧ fitsSecond ab.2 where
  read_eq_ok_iff {data ab rest} := by
    obtain ⟨a, b⟩ := ab
    simp only [Format.pair, bind_eq_ok_iff, List.append_assoc]
    constructor
    · rintro ⟨⟨a', left⟩, hread, ⟨b', left'⟩, hread', hresult⟩
      simp only [Except.ok.injEq, Prod.mk.injEq] at hresult
      obtain ⟨⟨rfl, rfl⟩, rfl⟩ := hresult
      obtain ⟨ha, rfl⟩ := hfirst.read_eq_ok_iff.mp hread
      obtain ⟨hb, rfl⟩ := hsecond.read_eq_ok_iff.mp hread'
      exact ⟨⟨ha, hb⟩, rfl⟩
    · rintro ⟨⟨ha, hb⟩, rfl⟩
      exact ⟨_, hfirst.read_eq_ok_iff.mpr ⟨ha, rfl⟩, _, hsecond.read_eq_ok_iff.mpr ⟨hb, rfl⟩, rfl⟩

theorem Exact.readMany (h : format.Exact fits) {n : Nat} {data rest : Bytes} {as : List α} :
    format.readMany n data = .ok (as, rest) ↔
      as.length = n ∧ (∀ a ∈ as, fits a) ∧ data = as.flatMap format.write ++ rest := by
  induction n generalizing data as with
  | zero =>
    simp only [Format.readMany, Except.ok.injEq, Prod.mk.injEq]
    constructor
    · rintro ⟨rfl, rfl⟩
      simp
    · rintro ⟨hlength, -, rfl⟩
      simp [List.length_eq_zero_iff.mp hlength]
  | succ n ih =>
    simp only [Format.readMany, bind_eq_ok_iff]
    constructor
    · rintro ⟨⟨a, left⟩, hread, ⟨as', left'⟩, hread', hresult⟩
      simp only [Except.ok.injEq, Prod.mk.injEq] at hresult
      obtain ⟨rfl, rfl⟩ := hresult
      obtain ⟨ha, rfl⟩ := h.read_eq_ok_iff.mp hread
      obtain ⟨rfl, has, rfl⟩ := ih.mp hread'
      exact ⟨rfl, List.forall_mem_cons.mpr ⟨ha, has⟩, by simp⟩
    · rintro ⟨hlength, hfits, rfl⟩
      cases as with
      | nil => simp at hlength
      | cons a as =>
        obtain ⟨ha, has⟩ := List.forall_mem_cons.mp hfits
        have hrest := ih.mpr ⟨Nat.succ.inj hlength, has, rfl⟩
        refine ⟨(a, as.flatMap format.write ++ rest), ?_, _, hrest, rfl⟩
        exact h.read_eq_ok_iff.mpr ⟨ha, by simp⟩

theorem Exact.list (h : format.Exact fits) :
    (Format.list format).Exact fun as => FitsLength as.length ∧ ∀ a ∈ as, fits a where
  read_eq_ok_iff {data as rest} := by
    simp only [Format.list, bind_eq_ok_iff, List.append_assoc]
    constructor
    · rintro ⟨⟨n, left⟩, hread, hmany⟩
      obtain ⟨-, rfl⟩ := exact_uint64.read_eq_ok_iff.mp hread
      obtain ⟨hlength, hfits, rfl⟩ := h.readMany.mp hmany
      rw [hlength, UInt64.ofNat_toNat]
      exact ⟨⟨fitsLength_toNat n, hfits⟩, rfl⟩
    · rintro ⟨⟨hlength, hfits⟩, rfl⟩
      refine ⟨_, exact_uint64.read_eq_ok_iff.mpr ⟨trivial, rfl⟩, h.readMany.mpr ⟨?_, hfits, rfl⟩⟩
      exact (UInt64.toNat_ofNat_of_lt' hlength).symm

theorem exact_text : text.Exact fun s => FitsLength (Utf8.encode s).length where
  read_eq_ok_iff {data s rest} := by
    simp only [text, bind_eq_ok_iff, List.append_assoc]
    constructor
    · rintro ⟨⟨n, left⟩, hread, hresult⟩
      obtain ⟨-, rfl⟩ := exact_uint64.read_eq_ok_iff.mp hread
      dsimp only at hresult
      split at hresult
      · cases hresult
      · next hlong =>
        split at hresult
        · next s' hdecode =>
          simp only [Except.ok.injEq, Prod.mk.injEq] at hresult
          obtain ⟨rfl, rfl⟩ := hresult
          have hlength : (left.take n.toNat).length = n.toNat :=
            List.length_take_of_le (Nat.le_of_not_lt hlong)
          rw [← Utf8.decode_eq_ok_iff.mp hdecode, hlength, UInt64.ofNat_toNat,
            List.take_append_drop]
          exact ⟨fitsLength_toNat n, rfl⟩
        · cases hresult
    · rintro ⟨hfits, rfl⟩
      refine ⟨_, exact_uint64.read_eq_ok_iff.mpr ⟨trivial, rfl⟩, ?_⟩
      have hlength : (UInt64.ofNat (Utf8.encode s).length).toNat = (Utf8.encode s).length :=
        UInt64.toNat_ofNat_of_lt' hfits
      have hlong : ¬ (Utf8.encode s ++ rest).length < (Utf8.encode s).length := by simp
      simp only [hlength, if_neg hlong, List.take_left, List.drop_left,
        Utf8.decode_eq_ok_iff.mpr rfl]

theorem exact_slotId (kind : IdKind) : (slotId : Format (SlotId kind)).Exact fun _ => True :=
  ((exact_hash.pair exact_uint32).via (fun _ => rfl) (fun _ => rfl)).of_iff (by simp)

end Format

end Wire

end LedgerWatch
