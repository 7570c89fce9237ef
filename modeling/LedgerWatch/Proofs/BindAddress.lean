import LedgerWatch.Connection
import Mathlib.Algebra.Group.Nat.Defs

/-!
# Addresses of servers

The address of a server is its host and its port with a colon between them. Whatever is not written
by this grammar is refused as it stands, and no node is asked on its behalf.

## Main definitions

- `Decimal.Numeral`: how numbers are written
- `BindAddress`: what an address names

## Main results

- `Decimal.read?_eq_some_iff`: numbers are read from their texts only
- `parseBindAddress_eq_ok_iff`: addresses are parsed by their grammar
- `bindAddress_exact`: what the parser and the registration of a route make of an address
-/

namespace LedgerWatch

namespace Decimal

/-- The texts of a number: its digits to base ten, at least one, with or without a plus sign before
them. Zeros may lead. -/
inductive Numeral : List Char → Nat → Prop
  | unsigned {digits : List Char} (hne : digits ≠ []) (hdigits : ∀ c ∈ digits, c.isDigit) :
      Numeral digits (Nat.ofDigitChars 10 digits 0)
  | signed {digits : List Char} (hne : digits ≠ []) (hdigits : ∀ c ∈ digits, c.isDigit) :
      Numeral ('+' :: digits) (Nat.ofDigitChars 10 digits 0)

theorem digit?_eq_some_iff {c : Char} {d : Nat} :
    digit? c = some d ↔ c.isDigit ∧ c.toNat - '0'.toNat = d := by
  have hrange : c.isDigit = true ↔ '0' ≤ c ∧ c ≤ '9' := by
    simp [Char.isDigit, Char.le_def]
  rw [digit?, hrange]
  split
  · next h => simp [h]
  · next h => simp [h]

theorem valueFrom_eq_some_iff {cs : List Char} {read n : Nat} :
    valueFrom read cs = some n ↔
      (∀ c ∈ cs, c.isDigit) ∧ Nat.ofDigitChars 10 cs read = n := by
  induction cs generalizing read with
  | nil => simp [valueFrom]
  | cons c cs ih =>
    simp only [valueFrom, Option.bind_eq_bind, Option.bind_eq_some_iff, digit?_eq_some_iff, ih,
      List.forall_mem_cons, Nat.ofDigitChars_cons]
    constructor
    · rintro ⟨d, ⟨hc, rfl⟩, hcs, hn⟩
      exact ⟨⟨hc, hcs⟩, hn⟩
    · rintro ⟨⟨hc, hcs⟩, hn⟩
      exact ⟨_, ⟨hc, rfl⟩, hcs, hn⟩

theorem value?_eq_some_iff {cs : List Char} {n : Nat} :
    value? cs = some n ↔ cs ≠ [] ∧ (∀ c ∈ cs, c.isDigit) ∧ Nat.ofDigitChars 10 cs 0 = n := by
  cases cs with
  | nil => simp [value?]
  | cons c cs => simp [value?, valueFrom_eq_some_iff]

theorem bind_value?_eq_some_iff {bound n : Nat} {cs : List Char} :
    ((value? cs).bind fun m => if m < bound then some m else none) = some n ↔
      (cs ≠ [] ∧ (∀ c ∈ cs, c.isDigit) ∧ Nat.ofDigitChars 10 cs 0 = n) ∧ n < bound := by
  rw [Option.bind_eq_some_iff, ← value?_eq_some_iff]
  simp only [Option.ite_none_right_eq_some, Option.some.injEq]
  constructor
  · rintro ⟨m, hm, hbound, rfl⟩
    exact ⟨hm, hbound⟩
  · rintro ⟨hn, hbound⟩
    exact ⟨n, hn, hbound, rfl⟩

/-- A text is read as a number below a bound exactly if it is one of the number's texts. -/
theorem read?_eq_some_iff {bound n : Nat} {text : String} :
    read? bound text = some n ↔ Numeral text.toList n ∧ n < bound := by
  simp only [read?, Option.bind_eq_bind]
  generalize text.toList = cs
  constructor
  · intro h
    split at h
    · obtain ⟨⟨hne, hdigits, rfl⟩, hbound⟩ := bind_value?_eq_some_iff.mp h
      exact ⟨.signed hne hdigits, hbound⟩
    · obtain ⟨⟨hne, hdigits, rfl⟩, hbound⟩ := bind_value?_eq_some_iff.mp h
      exact ⟨.unsigned hne hdigits, hbound⟩
  · rintro ⟨⟨hne, hdigits⟩ | ⟨hne, hdigits⟩, hbound⟩
    · split
      -- a plus sign is no digit
      · exact absurd (hdigits '+' List.mem_cons_self) (by decide)
      · exact bind_value?_eq_some_iff.mpr ⟨⟨hne, hdigits, rfl⟩, hbound⟩
    · exact bind_value?_eq_some_iff.mpr ⟨⟨hne, hdigits, rfl⟩, hbound⟩

end Decimal

theorem splitOn_eq_singleton_iff {sep : Char} {text part : List Char} :
    text.splitOn sep = [part] ↔ text = part ∧ sep ∉ text := by
  by_cases hmem : sep ∈ text
  · obtain ⟨before, behind, rfl, hbefore⟩ := List.eq_append_cons_of_mem hmem
    simp [List.splitOn_append_cons_self_of_not_mem hbefore, List.splitOn_ne_nil]
  · simp [List.splitOn_eq_singleton hmem, hmem]

/-- A text splits into two parts exactly if it is the two with the separator between them, and
neither holds another one. -/
theorem splitOn_eq_pair_iff {sep : Char} {text before behind : List Char} :
    text.splitOn sep = [before, behind] ↔
      text = before ++ sep :: behind ∧ sep ∉ before ∧ sep ∉ behind := by
  constructor
  · intro h
    by_cases hmem : sep ∈ text
    · obtain ⟨first, rest, rfl, hfirst⟩ := List.eq_append_cons_of_mem hmem
      rw [List.splitOn_append_cons_self_of_not_mem hfirst] at h
      obtain ⟨rfl, hrest⟩ := List.cons.inj h
      obtain ⟨rfl, hbehind⟩ := splitOn_eq_singleton_iff.mp hrest
      exact ⟨rfl, hfirst, hbehind⟩
    · rw [List.splitOn_eq_singleton hmem] at h
      simp at h
  · rintro ⟨rfl, hbefore, hbehind⟩
    rw [List.splitOn_append_cons_self_of_not_mem hbefore, List.splitOn_eq_singleton hbehind]

/-- An address names a host and a port if it is the two with a colon between them, there is no other
colon, and the port is written as a number below `2 ^ 32`. -/
inductive BindAddress : String → String → Nat → Prop
  | mk {host text : String} {port : Nat} (hhost : ':' ∉ host.toList) (htext : ':' ∉ text.toList)
      (hport : Decimal.Numeral text.toList port) (hbound : port < 2 ^ 32) :
      BindAddress (host ++ ":" ++ text) host port

namespace BindAddress

variable {address host : String} {port : Nat}

theorem port_lt (h : BindAddress address host port) : port < UInt32.size := by
  cases h with
  | mk hhost htext hport hbound => exact hbound

/-- What an address names is parsed from it. -/
theorem parse (h : BindAddress address host port) :
    parseBindAddress address = .ok (host, UInt32.ofNat port) := by
  cases h with
  | @mk _ text _ hhost htext hport hbound =>
    have hsplit : (host ++ ":" ++ text).toList.splitOn ':' = [host.toList, text.toList] := by
      rw [splitOn_eq_pair_iff]
      exact ⟨by simp, hhost, htext⟩
    have hread : Decimal.read? UInt32.size (String.ofList text.toList) = some port := by
      rw [Decimal.read?_eq_some_iff, String.ofList_toList]
      exact ⟨hport, hbound⟩
    rw [parseBindAddress, hsplit]
    dsimp only
    rw [hread]
    dsimp only
    rw [String.ofList_toList]

end BindAddress

/-- An address names a host and a port, or it is refused as it stands. -/
theorem parseBindAddress_cases (address : String) :
    (∃ host port, BindAddress address host port) ∨
      parseBindAddress address = .error (.invalidBindAddress address) := by
  unfold parseBindAddress
  split
  · next host text hsplit =>
    obtain ⟨haddress, hhost, htext⟩ := splitOn_eq_pair_iff.mp hsplit
    split
    · next port hread =>
      obtain ⟨hport, hbound⟩ := Decimal.read?_eq_some_iff.mp hread
      have hjoined : address = String.ofList host ++ ":" ++ String.ofList text := by
        rw [← String.toList_inj, haddress]
        simp
      rw [hjoined]
      exact .inl ⟨_, port, .mk (by simpa using hhost) (by simpa using htext) hport hbound⟩
    · exact .inr rfl
  · exact .inr rfl

/-- An address is parsed as a host and a port exactly if it names them. -/
theorem parseBindAddress_eq_ok_iff {address host : String} {port : UInt32} :
    parseBindAddress address = .ok (host, port) ↔ BindAddress address host port.toNat := by
  constructor
  · intro h
    rcases parseBindAddress_cases address with ⟨named, number, hnames⟩ | herror
    · obtain ⟨rfl, rfl⟩ := Prod.mk.inj (Except.ok.inj (hnames.parse.symm.trans h))
      rwa [UInt32.toNat_ofNat_of_lt' hnames.port_lt]
    · rw [herror] at h
      cases h
  · intro h
    rw [h.parse, UInt32.ofNat_toNat]

/-- An address is parsed as a host and a port exactly if it names them, and then a route for it is
registered by one call on the node, whose answer is passed on. An address that names none is refused
as it stands, and no call is made. -/
theorem bindAddress_exact (address : String) :
    (∀ host port, parseBindAddress address = .ok (host, port) ↔
      BindAddress address host port.toNat) ∧
    (∀ host port, BindAddress address host port →
      parseBindAddress address = .ok (host, UInt32.ofNat port) ∧
      ∀ (ω : Type) (call : ApiRoute → ω → ω × Except RpcStatus Unit) (route path : String) (w : ω),
        Connection.registerRouteBy call route address path w =
          (call ⟨route, host, UInt32.ofNat port, path⟩ w).map id Connection.answered) ∧
    ((∀ host port, ¬ BindAddress address host port) →
      parseBindAddress address = .error (.invalidBindAddress address) ∧
      (∀ (ω : Type) (call : ApiRoute → ω → ω × Except RpcStatus Unit) (route path : String) (w : ω),
        Connection.registerRouteBy call route address path w =
          (w, .error (.invalidBindAddress address))) ∧
      ∀ (route path : String) (node : Node), Connection.registerRoute route address path node =
        (node, .error (.invalidBindAddress address))) := by
  refine ⟨fun host port => parseBindAddress_eq_ok_iff, ?_, ?_⟩
  · intro host port hnames
    refine ⟨hnames.parse, fun ω call route path w => ?_⟩
    rw [Connection.registerRouteBy, hnames.parse]
    rfl
  · intro hnone
    have hrefused : parseBindAddress address = .error (.invalidBindAddress address) :=
      (parseBindAddress_cases address).resolve_left fun ⟨host, port, h⟩ => hnone host port h
    have huncalled : ∀ (ω : Type) (call : ApiRoute → ω → ω × Except RpcStatus Unit)
        (route path : String) (w : ω), Connection.registerRouteBy call route address path w =
          (w, .error (.invalidBindAddress address)) := by
      intro ω call route path w
      rw [Connection.registerRouteBy, hrefused]
    exact ⟨hrefused, huncalled, fun route path node => huncalled Node _ route path node⟩

/-- A node that notes what it is asked and refuses all of it. -/
def refusingNode (request : ApiRoute) (asked : List ApiRoute) :
    List ApiRoute × Except RpcStatus Unit :=
  (asked ++ [request], .error (.unavailable "gone"))

/-- A port with a plus sign and leading zeros behind an empty host, and a host that has colons of
its own. -/
theorem bindAddress_exact_plusSign :
    (parseBindAddress ":+0009091" = .ok ("", 9091) ∧
      Connection.registerRouteBy refusingNode "api" ":+0009091" "v1" [] =
        ([⟨"api", "", 9091, "v1"⟩], .error (.rpc (.unavailable "gone")))) ∧
    Connection.registerRouteBy refusingNode "api" "[::1]:80" "v1" [] =
      ([], .error (.invalidBindAddress "[::1]:80")) := by
  have hport : Decimal.Numeral ['+', '0', '0', '0', '9', '0', '9', '1'] 9091 :=
    .signed (by simp) (by simp)
  have hnames : BindAddress ":+0009091" "" 9091 :=
    @BindAddress.mk "" "+0009091" 9091 (by decide) (by decide) hport (by decide)
  have hnone : ∀ host port, ¬ BindAddress "[::1]:80" host port := by
    intro host port h
    have hrefused : parseBindAddress "[::1]:80" = .error (.invalidBindAddress "[::1]:80") := rfl
    exact absurd (h.parse.symm.trans hrefused) (by simp)
  obtain ⟨hparse, hcall⟩ := (bindAddress_exact ":+0009091").2.1 "" 9091 hnames
  obtain ⟨-, huncalled, -⟩ := (bindAddress_exact "[::1]:80").2.2 hnone
  exact ⟨⟨hparse, hcall _ refusingNode "api" "v1" []⟩, huncalled _ refusingNode "api" "v1" []⟩

end LedgerWatch
