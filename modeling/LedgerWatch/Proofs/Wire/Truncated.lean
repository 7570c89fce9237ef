import LedgerWatch.Proofs.Wire.Exact

/-!
# Encodings that are cut or continued

A reader that meets the end of the data within a value says so, wherever the value is cut. The cause
depends on the place: within a text, behind its length, it is that the text is too long for the
data, and anywhere else that the data end. A length that was read whole never turns what is left of
the data into another value. Every combinator keeps this, so it holds of a record as soon as it
holds of the fields.

## Main definitions

- `Wire.Format.CutShort`: a proper part of an encoding is refused, with a cause told by the place

## Main results

- `Wire.Format.CutShort.pair`, `Wire.Format.CutShort.list`, `Wire.Format.CutShort.via`: combinators
  keep it
- `Wire.Format.CutShort.decode_of_isPrefix`: an encoding that is cut
- `Wire.Format.Exact.decode_append`: an encoding that is continued
- `Wire.Format.Exact.eq_of_isPrefix`: no encoding is the beginning of another
-/

namespace LedgerWatch.Wire

theorem takeBytes_of_short {n : Nat} {data : Bytes} (h : data.length < n) :
    takeBytes n data = .error .endOfData := by
  induction n generalizing data with
  | zero => exact absurd h (Nat.not_lt_zero _)
  | succ n ih =>
    cases data with
    | nil => rfl
    | cons b data =>
      rw [takeBytes, ih (Nat.lt_of_succ_lt_succ h)]
      rfl

namespace Format

variable {α β : Type} {format : Format α} {first : Format α} {second : Format β}
  {fits : α → Prop} {fitsSecond : β → Prop} {cause : α → Nat → Cause}
  {causeSecond : β → Nat → Cause}

/-- Of an encoding that is cut after `n` bytes nothing is read. -/
structure CutShort (format : Format α) (fits : α → Prop) (cause : α → Nat → Cause) : Prop where
  read_take : ∀ {a n}, fits a → n < (format.write a).length →
    format.read ((format.write a).take n) = .error (cause a n)

/-! ## Whole byte strings -/

/-- A proper part of an encoding is refused. -/
theorem CutShort.decode_of_isPrefix (h : format.CutShort fits cause) {a : α} {data : Bytes}
    (hfits : fits a) (hpart : data <+: format.encode a) (hproper : data ≠ format.encode a) :
    format.decode data = .error (cause a data.length) := by
  have hshort : data.length < (format.encode a).length :=
    Nat.lt_of_le_of_ne hpart.length_le fun heq => hproper (hpart.eq_of_length heq)
  have hread := h.read_take hfits hshort
  have hdata : (format.write a).take data.length = data :=
    (List.prefix_iff_eq_take.mp hpart).symm
  rw [hdata] at hread
  rw [decode, hread]
  rfl

/-- An encoding with more bytes behind it is refused for these. -/
theorem Exact.decode_append (h : format.Exact fits) {a : α} {extra : Bytes} (hfits : fits a)
    (hextra : extra ≠ []) : format.decode (format.encode a ++ extra) = .error .trailingBytes := by
  have hread : format.read (format.encode a ++ extra) = .ok (a, extra) :=
    h.read_eq_ok_iff.mpr ⟨hfits, rfl⟩
  rw [decode, hread]
  exact if_neg (mt List.isEmpty_iff.mp hextra)

/-- No encoding is the beginning of that of another value. -/
theorem Exact.eq_of_isPrefix (h : format.Exact fits) {a b : α} (ha : fits a) (hb : fits b)
    (hpart : format.encode a <+: format.encode b) : a = b := by
  obtain ⟨rest, hrest⟩ := hpart
  have hread : format.read (format.encode b) = .ok (a, rest) :=
    h.read_eq_ok_iff.mpr ⟨ha, hrest.symm⟩
  have hread' : format.read (format.encode b) = .ok (b, []) :=
    h.read_eq_ok_iff.mpr ⟨hb, (List.append_nil _).symm⟩
  rw [hread'] at hread
  exact (Prod.mk.inj (Except.ok.inj hread)).1.symm

/-! ## Fields -/

theorem cutShort_number (width : Nat) (toNat : α → Nat) (ofNat : Nat → α) :
    (number width toNat ofNat).CutShort (fun _ => True) fun _ _ => .endOfData where
  read_take {a n} _ hn := by
    have hshort : ((leBytes width (toNat a)).take n).length < width := by
      rw [number, length_leBytes] at hn
      exact Nat.lt_of_le_of_lt (List.length_take_le ..) hn
    simp only [number, takeBytes_of_short hshort]
    rfl

theorem cutShort_uint8 : uint8.CutShort (fun _ => True) fun _ _ => .endOfData :=
  cutShort_number ..

theorem cutShort_uint16 : uint16.CutShort (fun _ => True) fun _ _ => .endOfData :=
  cutShort_number ..

theorem cutShort_uint32 : uint32.CutShort (fun _ => True) fun _ _ => .endOfData :=
  cutShort_number ..

theorem cutShort_uint64 : uint64.CutShort (fun _ => True) fun _ _ => .endOfData :=
  cutShort_number ..

theorem cutShort_hash : hash.CutShort (fun _ => True) fun _ _ => .endOfData where
  read_take {h n} _ hn := by
    have hshort : (h.toList.take n).length < 32 := by
      rw [hash, Vector.length_toList] at hn
      exact Nat.lt_of_le_of_lt (List.length_take_le ..) hn
    simp only [hash, takeBytes_of_short hshort]
    rfl

/-! ## Combinators -/

/-- The condition and the cause may be put in other words. -/
theorem CutShort.of_eq (h : format.CutShort fits cause) {fits' : α → Prop}
    {cause' : α → Nat → Cause} (himp : ∀ a, fits' a → fits a)
    (heq : ∀ a n, n < (format.write a).length → cause' a n = cause a n) :
    format.CutShort fits' cause' where
  read_take hfits hn := by
    rw [heq _ _ hn]
    exact h.read_take (himp _ hfits) hn

theorem CutShort.via (h : format.CutShort fits cause) (view : β → α) (back : α → β) :
    (format.via view back).CutShort (fun b => fits (view b)) fun b n => cause (view b) n where
  read_take {b n} hfits hn := by
    have hread : format.read ((format.write (view b)).take n) = .error (cause (view b) n) :=
      h.read_take hfits hn
    simp only [Format.via, hread]
    rfl

/-- A value is read from the beginning of what is cut. The cut falls into its encoding, or behind it
and leaves it whole. -/
theorem CutShort.read_bind (h : format.CutShort fits cause) (hexact : format.Exact fits) {a : α}
    (ha : fits a) (rest : Bytes) (n : Nat) (next : α × Bytes → Except Cause β) :
    (format.read ((format.write a ++ rest).take n) >>= next) =
      if n < (format.write a).length then .error (cause a n)
      else next (a, rest.take (n - (format.write a).length)) := by
  by_cases hcut : n < (format.write a).length
  · rw [List.take_append_of_le_length (Nat.le_of_lt hcut), h.read_take ha hcut, if_pos hcut]
    rfl
  · have hwhole : (format.write a).take n = format.write a :=
      List.take_of_length_le (Nat.le_of_not_lt hcut)
    have hread : format.read ((format.write a ++ rest).take n) =
        .ok (a, rest.take (n - (format.write a).length)) :=
      hexact.read_eq_ok_iff.mpr ⟨ha, by rw [List.take_append, hwhole]⟩
    rw [hread, if_neg hcut]
    rfl

theorem CutShort.pair (hfirst : first.CutShort fits cause) (hexact : first.Exact fits)
    (hsecond : second.CutShort fitsSecond causeSecond) :
    (first.pair second).CutShort (fun ab => fits ab.1 ∧ fitsSecond ab.2) fun ab n =>
      if n < (first.write ab.1).length then cause ab.1 n
      else causeSecond ab.2 (n - (first.write ab.1).length) where
  read_take {ab n} hfits hn := by
    obtain ⟨a, b⟩ := ab
    obtain ⟨ha, hb⟩ := hfits
    simp only [Format.pair, List.length_append] at hn ⊢
    rw [hfirst.read_bind hexact ha]
    by_cases hcut : n < (first.write a).length
    · rw [if_pos hcut, if_pos hcut]
    · have hrest : n - (first.write a).length < (second.write b).length := by omega
      rw [if_neg hcut, if_neg hcut, hsecond.read_take hb hrest]
      rfl

/-- Fewer values are there than are to be read. -/
theorem CutShort.readMany (h : format.CutShort fits fun _ _ => .endOfData)
    (hexact : format.Exact fits) {as : List α} {n : Nat} (hfits : ∀ a ∈ as, fits a)
    (hn : n < (as.flatMap format.write).length) :
    format.readMany as.length ((as.flatMap format.write).take n) = .error .endOfData := by
  induction as generalizing n with
  | nil => exact absurd hn (Nat.not_lt_zero n)
  | cons a as ih =>
    obtain ⟨ha, has⟩ := List.forall_mem_cons.mp hfits
    rw [List.flatMap_cons, List.length_append] at hn
    rw [List.flatMap_cons, List.length_cons, Format.readMany, h.read_bind hexact ha]
    by_cases hcut : n < (format.write a).length
    · rw [if_pos hcut]
    · have hrest : n - (format.write a).length < (as.flatMap format.write).length := by omega
      rw [if_neg hcut]
      dsimp only
      rw [ih has hrest]
      rfl

theorem CutShort.list (h : format.CutShort fits fun _ _ => .endOfData)
    (hexact : format.Exact fits) :
    (Format.list format).CutShort (fun as => FitsLength as.length ∧ ∀ a ∈ as, fits a)
      fun _ _ => .endOfData where
  read_take {as n} hfits hn := by
    obtain ⟨hlength, hitems⟩ := hfits
    simp only [Format.list, List.length_append] at hn ⊢
    rw [cutShort_uint64.read_bind exact_uint64 trivial, length_write_uint64]
    rw [length_write_uint64] at hn
    by_cases hcut : n < 8
    · rw [if_pos hcut]
    · have hcount : (UInt64.ofNat as.length).toNat = as.length := UInt64.toNat_ofNat_of_lt' hlength
      rw [if_neg hcut]
      dsimp only
      rw [hcount]
      exact h.readMany hexact hitems (by omega)

/-- Within a text, behind its length, the text is too long for the data. -/
theorem cutShort_text :
    text.CutShort (fun s => FitsLength (Utf8.encode s).length) fun _ n =>
      if n < 8 then .endOfData else .textTooLong where
  read_take {s n} hfits hn := by
    simp only [text, List.length_append, length_write_uint64] at hn ⊢
    rw [cutShort_uint64.read_bind exact_uint64 trivial, length_write_uint64]
    by_cases hcut : n < 8
    · rw [if_pos hcut, if_pos hcut]
    · have hlength : (UInt64.ofNat (Utf8.encode s).length).toNat = (Utf8.encode s).length :=
        UInt64.toNat_ofNat_of_lt' hfits
      have hshort : ((Utf8.encode s).take (n - 8)).length < (Utf8.encode s).length := by
        rw [List.length_take]
        omega
      rw [if_neg hcut, if_neg hcut]
      dsimp only
      rw [hlength, if_pos hshort]

theorem cutShort_slotId (kind : IdKind) :
    (slotId : Format (SlotId kind)).CutShort (fun _ => True) fun _ _ => .endOfData :=
  ((cutShort_hash.pair exact_hash cutShort_uint32).via _ _).of_eq (fun _ _ => ⟨trivial, trivial⟩)
    fun _ _ _ => (ite_self _).symm

end Format

end LedgerWatch.Wire
