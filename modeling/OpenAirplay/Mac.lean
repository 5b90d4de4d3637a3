import Mathlib.Data.List.Sort
import Mathlib.Data.String.Basic
import OpenAirplay.Text

/-!
# The MAC address of the machine

How a MAC address is read from text, and which interface of the machine lends its own.
-/

namespace OpenAirplay

open Text

set_option autoImplicit false

abbrev Mac := Vector UInt8 6

namespace Mac

/-! ## Reading -/

def hexDigit? (c : Char) : Option Nat :=
  if '0' ≤ c ∧ c ≤ '9' then some (c.toNat - 48)
  else if 'a' ≤ c ∧ c ≤ 'f' then some (c.toNat - 87)
  else if 'A' ≤ c ∧ c ≤ 'F' then some (c.toNat - 55)
  else none

def parseHexDigits : Nat → List Char → Option Nat
  | acc, [] => some acc
  | acc, c :: cs =>
    match hexDigit? c with
    | none => none
    | some d => if acc * 16 + d < 2 ^ 8 then parseHexDigits (acc * 16 + d) cs else none

/-- `u8::from_str_radix` with radix 16, which takes a plus sign. -/
def parseHex (s : String) : Option UInt8 :=
  (match s.toList with
    | [] => none
    | ['+'] => none
    | '+' :: cs => parseHexDigits 0 cs
    | cs => parseHexDigits 0 cs).map UInt8.ofNat

/-- The receiver's `--mac` argument is read in the same way. -/
def parse (s : String) : Option Mac :=
  match split (trim s) ':' with
  | [a, b, c, d, e, f] => do
    let a ← parseHex a
    let b ← parseHex b
    let c ← parseHex c
    let d ← parseHex d
    let e ← parseHex e
    let f ← parseHex f
    pure #v[a, b, c, d, e, f]
  | _ => none

/-! ## Discovery -/

/-- A directory of `/sys/class/net`, with what its files say if they can be read. -/
structure Interface where
  fileName : Bytes
  address : Option String
  operstate : Option String

def Interface.name (i : Interface) : String := fromUtf8Lossy i.fileName

structure Candidate where
  name : String
  mac : Mac
  up : Bool

def Interface.candidate? (i : Interface) : Option Candidate :=
  if i.name = "lo" then none
  else match i.address.bind parse with
    | none => none
    | some mac =>
      if mac = #v[0, 0, 0, 0, 0, 0] then none
      else some ⟨i.name, mac, (i.operstate.map fun s => trim s == "up").getD false⟩

/-- The order of the bytes is that of the characters. -/
def Candidate.NotAfter (a b : Candidate) : Prop := a.name ≤ b.name

instance : DecidableRel Candidate.NotAfter := fun a b =>
  inferInstanceAs (Decidable (a.name ≤ b.name))

/-- The first that is up, or else the first. -/
def chosen (candidates : List Candidate) : Option Candidate :=
  (candidates.find? (·.up)).or candidates.head?

def discoverIn (netDir : Option (List Interface)) : Option Mac := do
  let entries ← netDir
  let candidates := (entries.filterMap Interface.candidate?).insertionSort Candidate.NotAfter
  (chosen candidates).map (·.mac)

/-! ## What is read -/

/-- The number these digits write, if they are digits. -/
def hexValue (acc : Nat) (cs : List Char) : Option Nat :=
  cs.foldlM (fun acc c => (hexDigit? c).map (acc * 16 + ·)) acc

theorem hexValue_cons (acc : Nat) (c : Char) (cs : List Char) :
    hexValue acc (c :: cs) = (hexDigit? c).bind fun d => hexValue (acc * 16 + d) cs := by
  rw [hexValue, List.foldlM_cons]
  cases hexDigit? c <;> rfl

theorem le_hexValue {acc v : Nat} {cs : List Char} (h : hexValue acc cs = some v) : acc ≤ v := by
  induction cs generalizing acc with
  | nil => exact (Option.some.inj h).le
  | cons c cs ih =>
    rw [hexValue_cons, Option.bind_eq_some_iff] at h
    obtain ⟨d, -, hrest⟩ := h
    have hle := ih hrest
    omega

/-- The check after every digit comes to one at the end. -/
theorem parseHexDigits_eq_some_iff {acc v : Nat} {cs : List Char} (hacc : acc < 2 ^ 8) :
    parseHexDigits acc cs = some v ↔ hexValue acc cs = some v ∧ v < 2 ^ 8 := by
  induction cs generalizing acc with
  | nil =>
    rw [parseHexDigits]
    constructor
    · intro h
      exact ⟨h, Option.some.inj h ▸ hacc⟩
    · exact fun h => h.1
  | cons c cs ih =>
    rw [hexValue_cons]
    cases hdigit : hexDigit? c with
    | none => simp [parseHexDigits, hdigit]
    | some d =>
      rw [Option.bind_some]
      by_cases hfits : acc * 16 + d < 2 ^ 8
      · simp only [parseHexDigits, hdigit, if_pos hfits]
        exact ih hfits
      · simp only [parseHexDigits, hdigit, if_neg hfits]
        constructor
        · intro h
          cases h
        · rintro ⟨h, hv⟩
          have hle := le_hexValue h
          omega

/-- One byte in hexadecimal, of any length and in either case. -/
def WritesByte (part : String) (b : UInt8) : Prop :=
  ∃ digits, (part.toList = digits ∨ part.toList = '+' :: digits) ∧ digits ≠ [] ∧
    hexValue 0 digits = some b.toNat

theorem map_ofNat_eq_some_iff {v : Option Nat} {b : UInt8} (h : ∀ n, v = some n → n < 2 ^ 8) :
    v.map UInt8.ofNat = some b ↔ v = some b.toNat := by
  constructor
  · intro hmap
    obtain ⟨n, rfl, rfl⟩ := Option.map_eq_some_iff.mp hmap
    rw [UInt8.toNat_ofNat_of_lt' (h n rfl)]
  · rintro rfl
    rw [Option.map_some, UInt8.ofNat_toNat]

theorem map_parseHexDigits_iff {cs : List Char} {b : UInt8} :
    (parseHexDigits 0 cs).map UInt8.ofNat = some b ↔ hexValue 0 cs = some b.toNat := by
  have hiff (v : Nat) : parseHexDigits 0 cs = some v ↔ hexValue 0 cs = some v ∧ v < 2 ^ 8 :=
    parseHexDigits_eq_some_iff (Nat.two_pow_pos 8)
  rw [map_ofNat_eq_some_iff fun n h => ((hiff n).mp h).2, hiff]
  exact and_iff_left b.toNat_lt

theorem hexValue_plus (acc : Nat) (cs : List Char) : hexValue acc ('+' :: cs) = none := by
  rw [hexValue_cons]
  rfl

theorem parseHex_eq_some_iff {part : String} {b : UInt8} :
    parseHex part = some b ↔ WritesByte part b := by
  unfold parseHex WritesByte
  split
  · rename_i hnil
    rw [hnil]
    constructor
    · intro h
      cases h
    · rintro ⟨digits, h | h, hne, -⟩
      · exact absurd h.symm hne
      · cases h
  · rename_i hplus
    rw [hplus]
    constructor
    · intro h
      cases h
    · rintro ⟨digits, h | h, hne, hvalue⟩
      · rw [← h, hexValue_plus] at hvalue
        cases hvalue
      · exact absurd (List.cons.inj h).2.symm hne
  · rename_i cs hsingle hplus
    rw [hplus, map_parseHexDigits_iff]
    constructor
    · intro h
      exact ⟨cs, .inr rfl, hsingle, h⟩
    · rintro ⟨digits, h | h, -, hvalue⟩
      · rw [← h, hexValue_plus] at hvalue
        cases hvalue
      · rwa [(List.cons.inj h).2]
  · rename_i hnil _ hplus
    rw [map_parseHexDigits_iff]
    constructor
    · intro h
      exact ⟨_, .inl rfl, fun he => hnil he, h⟩
    · rintro ⟨digits, h | h, -, hvalue⟩
      · rwa [h]
      · exact absurd h (hplus digits)

/-- Six bytes with colons between them, and any white space around them. -/
def Spells (s : String) (mac : Mac) : Prop :=
  List.Forall₂ WritesByte (split (trim s) ':') mac.toList

theorem parse_eq_some_iff {s : String} {mac : Mac} : parse s = some mac ↔ Spells s mac := by
  unfold parse Spells
  split
  · rename_i a b c d e f hparts
    rw [hparts]
    constructor
    · intro h
      simp only [Option.bind_eq_bind, Option.bind_eq_some_iff, parseHex_eq_some_iff] at h
      obtain ⟨_, ha, _, hb, _, hc, _, hd, _, he, _, hf, hmac⟩ := h
      obtain rfl := Option.some.inj hmac
      exact .cons ha (.cons hb (.cons hc (.cons hd (.cons he (.cons hf .nil)))))
    · intro h
      obtain ⟨⟨bytes⟩, hsize⟩ := mac
      have hbytes : List.Forall₂ WritesByte [a, b, c, d, e, f] bytes := h
      clear h
      match bytes, hbytes with
      | [_, _, _, _, _, _], .cons ha (.cons hb (.cons hc (.cons hd (.cons he (.cons hf .nil))))) =>
        rw [parseHex_eq_some_iff.mpr ha, parseHex_eq_some_iff.mpr hb, parseHex_eq_some_iff.mpr hc,
          parseHex_eq_some_iff.mpr hd, parseHex_eq_some_iff.mpr he, parseHex_eq_some_iff.mpr hf]
        rfl
  · rename_i hother
    constructor
    · intro h
      cases h
    · intro h
      have hlen : (split (trim s) ':').length = 6 := h.length_eq.trans mac.length_toList
      match hparts : split (trim s) ':', hlen with
      | [a, b, c, d, e, f], _ => exact absurd hparts (hother a b c d e f)

/-! ## Which one is chosen -/

/-- Up before down, and then by name. -/
def Candidate.Preferred (a b : Candidate) : Prop :=
  (b.up = true → a.up = true) ∧ ((a.up = true → b.up = true) → a.name ≤ b.name)

theorem chosen_preferred {candidates : List Candidate} {c : Candidate}
    (hsorted : candidates.Pairwise Candidate.NotAfter) (h : chosen candidates = some c) :
    c ∈ candidates ∧ ∀ d ∈ candidates, c.Preferred d := by
  cases hfind : candidates.find? (·.up) with
  | some b =>
    rw [chosen, hfind, Option.some_or, Option.some.injEq] at h
    subst h
    obtain ⟨hup, before, after, rfl, hdown⟩ := List.find?_eq_some_iff_append.mp hfind
    refine ⟨by simp, fun d hd => ⟨fun _ => hup, fun hboth => ?_⟩⟩
    have hafter := (List.pairwise_cons.mp (List.pairwise_append.mp hsorted).2.1).1
    rcases List.mem_append.mp hd with hd | hd
    · have hd' := hdown d hd
      rw [hboth hup] at hd'
      cases hd'
    · rcases List.mem_cons.mp hd with rfl | hd
      · exact le_refl _
      · exact hafter d hd
  | none =>
    rw [chosen, hfind, Option.none_or] at h
    rw [List.find?_eq_none] at hfind
    obtain ⟨rest, rfl⟩ := List.head?_eq_some_iff.mp h
    refine ⟨List.mem_cons_self, fun d hd => ⟨fun hup => absurd hup (hfind d hd), fun _ => ?_⟩⟩
    rcases List.mem_cons.mp hd with rfl | hd
    · exact le_refl _
    · exact (List.pairwise_cons.mp hsorted).1 d hd

theorem exists_chosen {candidates : List Candidate} {c : Candidate} (h : c ∈ candidates) :
    ∃ d, chosen candidates = some d := by
  cases candidates with
  | nil => cases h
  | cons first rest =>
    rw [chosen]
    cases (first :: rest).find? (·.up) with
    | none => exact ⟨first, rfl⟩
    | some d => exact ⟨d, rfl⟩

/-- An interface other than the loopback, with an address other than zero. -/
def Interface.Offers (i : Interface) (mac : Mac) : Prop :=
  i.name ≠ "lo" ∧ mac ≠ #v[0, 0, 0, 0, 0, 0] ∧ ∃ s, i.address = some s ∧ Spells s mac

def Interface.Up (i : Interface) : Prop := ∃ s, i.operstate = some s ∧ trim s = "up"

theorem candidate?_eq_some_iff {i : Interface} {c : Candidate} :
    i.candidate? = some c ↔ i.Offers c.mac ∧ c.name = i.name ∧ (c.up = true ↔ i.Up) := by
  have hup : (i.operstate.map fun s => trim s == "up").getD false = true ↔ i.Up := by
    cases hstate : i.operstate <;> simp [Interface.Up, hstate]
  have haddress : ∀ mac, i.address.bind parse = some mac ↔
      ∃ s, i.address = some s ∧ Spells s mac := by
    intro mac
    simp only [Option.bind_eq_some_iff, parse_eq_some_iff]
  unfold Interface.candidate? Interface.Offers
  split
  · rename_i hlo
    constructor
    · intro h
      cases h
    · rintro ⟨⟨hne, -⟩, -⟩
      exact absurd hlo hne
  · rename_i hlo
    split
    · rename_i hnone
      constructor
      · intro h
        cases h
      · rintro ⟨⟨-, -, hspells⟩, -⟩
        rw [← haddress, hnone] at hspells
        cases hspells
    · rename_i mac hmac
      have hspells := (haddress mac).mp hmac
      split
      · rename_i hzero
        constructor
        · intro h
          cases h
        · rintro ⟨⟨-, hne, hspells'⟩, -⟩
          rw [← haddress, hmac] at hspells'
          exact absurd (Option.some.inj hspells' ▸ hzero) hne
      · rename_i hzero
        constructor
        · intro h
          cases h
          exact ⟨⟨hlo, hzero, hspells⟩, rfl, hup⟩
        · rintro ⟨⟨-, -, hspells'⟩, hname, hup'⟩
          rw [← haddress, hmac] at hspells'
          rw [← hup', Bool.eq_iff_iff.symm] at hup
          rw [hup, Option.some.inj hspells', ← hname]

theorem offers_iff {i : Interface} {mac : Mac} :
    i.Offers mac ↔ ∃ c, i.candidate? = some c ∧ c.mac = mac := by
  classical
  constructor
  · intro h
    exact ⟨⟨i.name, mac, decide i.Up⟩, candidate?_eq_some_iff.mpr ⟨h, rfl, decide_eq_true_iff⟩, rfl⟩
  · rintro ⟨c, hc, rfl⟩
    exact (candidate?_eq_some_iff.mp hc).1

theorem preferred_iff {i j : Interface} {c d : Candidate} (hc : i.candidate? = some c)
    (hd : j.candidate? = some d) :
    c.Preferred d ↔ (j.Up → i.Up) ∧ ((i.Up → j.Up) → i.name ≤ j.name) := by
  obtain ⟨-, hcname, hcup⟩ := candidate?_eq_some_iff.mp hc
  obtain ⟨-, hdname, hdup⟩ := candidate?_eq_some_iff.mp hd
  rw [Candidate.Preferred, hcup, hdup, hcname, hdname]

/-- Two interfaces that are each preferred to the other have the same name. -/
theorem name_eq_of_preferred {c d : Candidate} (hcd : c.Preferred d) (hdc : d.Preferred c) :
    c.name = d.name := le_antisymm (hcd.2 hdc.1) (hdc.2 hcd.1)

instance : IsTrans Candidate Candidate.NotAfter := ⟨fun _ _ _ => le_trans⟩

instance : Std.Total Candidate.NotAfter := ⟨fun a b => le_total a.name b.name⟩

/-- In whatever order the directory is listed, and whatever else is in it: the address is that of
the first interface by name among those that are up, or among all if none of them is. -/
theorem discoverIn_eq_some_iff (entries : List Interface)
    (hnames : (entries.map Interface.name).Nodup) (mac : Mac) :
    discoverIn (some entries) = some mac ↔
      ∃ i ∈ entries, i.Offers mac ∧ ∀ j ∈ entries, ∀ other, j.Offers other →
        (j.Up → i.Up) ∧ ((i.Up → j.Up) → i.name ≤ j.name) := by
  have hsorted := List.pairwise_insertionSort Candidate.NotAfter
    (entries.filterMap Interface.candidate?)
  have hdiscover : discoverIn (some entries) = (chosen
      ((entries.filterMap Interface.candidate?).insertionSort Candidate.NotAfter)).map (·.mac) :=
    rfl
  have hmem : ∀ c, c ∈ (entries.filterMap Interface.candidate?).insertionSort Candidate.NotAfter ↔
      ∃ i ∈ entries, i.candidate? = some c := by
    intro c
    rw [List.mem_insertionSort, List.mem_filterMap]
  rw [hdiscover]
  generalize (entries.filterMap Interface.candidate?).insertionSort Candidate.NotAfter = candidates
    at hsorted hmem
  constructor
  · intro h
    obtain ⟨c, hchosen, rfl⟩ := Option.map_eq_some_iff.mp h
    obtain ⟨hc, hfirst⟩ := chosen_preferred hsorted hchosen
    obtain ⟨i, hi, hic⟩ := (hmem c).mp hc
    refine ⟨i, hi, offers_iff.mpr ⟨c, hic, rfl⟩, fun j hj other hother => ?_⟩
    obtain ⟨d, hjd, -⟩ := offers_iff.mp hother
    exact (preferred_iff hic hjd).mp (hfirst d ((hmem d).mpr ⟨j, hj, hjd⟩))
  · rintro ⟨i, hi, hoffers, hbest⟩
    obtain ⟨c, hic, rfl⟩ := offers_iff.mp hoffers
    have hc := (hmem c).mpr ⟨i, hi, hic⟩
    obtain ⟨d, hchosen⟩ := exists_chosen hc
    obtain ⟨hd, hfirst⟩ := chosen_preferred hsorted hchosen
    obtain ⟨j, hj, hjd⟩ := (hmem d).mp hd
    have hcd := (preferred_iff hic hjd).mpr (hbest j hj d.mac (offers_iff.mpr ⟨d, hjd, rfl⟩))
    have hname := name_eq_of_preferred hcd (hfirst c hc)
    rw [(candidate?_eq_some_iff.mp hic).2.1, (candidate?_eq_some_iff.mp hjd).2.1] at hname
    obtain rfl := List.inj_on_of_nodup_map hnames hi hj hname
    obtain rfl : c = d := Option.some.inj (hic.symm.trans hjd)
    rw [hchosen, Option.map_some]

/-- The loopback, a wire without a plug and a wireless network, as they happen to be listed. -/
def listed : List Interface :=
  [⟨utf8 "wlan0", some "aa:00:00:00:00:02\n", some "up\n"⟩,
    ⟨utf8 "lo", some "00:00:00:00:00:00\n", some "unknown\n"⟩,
    ⟨utf8 "eth0", some "AA:0:0:0:0:+1", none⟩]

theorem discoverIn_eq_some_iff_listed :
    ∃ i ∈ listed, i.Offers #v[0xaa, 0, 0, 0, 0, 2] ∧ ∀ j ∈ listed, ∀ other, j.Offers other →
      (j.Up → i.Up) ∧ ((i.Up → j.Up) → i.name ≤ j.name) :=
  (discoverIn_eq_some_iff listed (by decide +kernel) _).mp (by decide +kernel)

/-! ## Writing -/

def upperHexDigit (n : Nat) : Char := if n < 10 then Char.ofNat (48 + n) else Char.ofNat (55 + n)

def upperHexByte (b : UInt8) : List Char :=
  [upperHexDigit (b.toNat / 16), upperHexDigit (b.toNat % 16)]

def hex (mac : Mac) : String := .ofList (mac.toList.flatMap upperHexByte)

theorem upperHexDigit_injective {m n : Nat} (hm : m < 16) (hn : n < 16)
    (h : upperHexDigit m = upperHexDigit n) : m = n := by
  have hall : ∀ m : Fin 16, ∀ n : Fin 16,
      upperHexDigit m.val = upperHexDigit n.val → m.val = n.val := by decide
  exact hall ⟨m, hm⟩ ⟨n, hn⟩ h

theorem upperHexByte_injective {b c : UInt8} (h : upperHexByte b = upperHexByte c) : b = c := by
  have hb := b.toNat_lt
  have hc := c.toNat_lt
  obtain ⟨hhigh, hlow⟩ := List.cons_eq_cons.mp h
  have hdiv := upperHexDigit_injective (by omega) (by omega) hhigh
  have hmod := upperHexDigit_injective (by omega) (by omega) (List.cons.inj hlow).1
  apply UInt8.toNat_inj.mp
  omega

theorem flatMap_upperHexByte_injective {bs cs : Bytes}
    (h : bs.flatMap upperHexByte = cs.flatMap upperHexByte) : bs = cs := by
  induction bs generalizing cs with
  | nil =>
    cases cs with
    | nil => rfl
    | cons c cs => cases h
  | cons b bs ih =>
    cases cs with
    | nil => cases h
    | cons c cs =>
      rw [List.flatMap_cons, List.flatMap_cons] at h
      obtain ⟨hbyte, hrest⟩ := List.append_inj h rfl
      rw [upperHexByte_injective hbyte, ih hrest]

theorem length_hex (mac : Mac) : mac.hex.toList.length = 12 := by
  have hbyte : (fun b => (upperHexByte b).length) = fun _ => 2 := rfl
  rw [hex, String.toList_ofList, List.length_flatMap, hbyte, List.map_const', List.sum_replicate,
    mac.length_toList]
  rfl

theorem hex_injective {mac mac' : Mac} (h : mac.hex = mac'.hex) : mac = mac' := by
  have hlist := congrArg String.toList h
  rw [hex, hex, String.toList_ofList, String.toList_ofList] at hlist
  exact Vector.toList_inj.mp (flatMap_upperHexByte_injective hlist)

end Mac

end OpenAirplay
