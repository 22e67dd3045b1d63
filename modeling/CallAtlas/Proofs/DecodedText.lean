import CallAtlas.Tree
import Mathlib.Algebra.GroupWithZero.Nat
import Mathlib.Data.List.Induction
import Mathlib.Tactic.SplitIfs

/-!
Text decoded from octets that may be no text. Octets fall in one way only into characters and bad
runs, as long as each bad run is taken as long as it can be, and decoding gives every character as
it is and one replacement for each bad run.
-/

set_option autoImplicit false

namespace CallAtlas

namespace Text.Utf8

/-- The octets of some character start like this. -/
def Begins (octets : List UInt8) : Prop :=
  ∃ c, octets <+: String.utf8EncodeChar c

/-- No character stands in front of `bad ++ rest`, and `bad` is the longest part of it, from its
front, that starts a character. An octet that starts none is a bad run of its own. -/
structure IsBadRun (bad rest : List UInt8) : Prop where
  noCharacter : ∀ c, ¬ String.utf8EncodeChar c <+: bad ++ rest
  shape : bad.length = 1 ∨ bad ≠ [] ∧ Begins bad
  longest : ∀ more, more ≠ [] → more <+: rest → ¬ Begins (bad ++ more)

/-- The characters that octets are read as. -/
inductive Reads : List UInt8 → List Char → Prop where
  | nil : Reads [] []
  | character {rest : List UInt8} {cs : List Char} (c : Char) (hrest : Reads rest cs) :
    Reads (String.utf8EncodeChar c ++ rest) (c :: cs)
  | bad {bad rest : List UInt8} {cs : List Char} (hbad : IsBadRun bad rest)
    (hrest : Reads rest cs) : Reads (bad ++ rest) (replacement :: cs)

/-- A character that the octets break off in the middle of. -/
def EndsCut (octets : List UInt8) : Prop :=
  ∃ cut c, cut ≠ [] ∧ cut <:+ octets ∧ cut <+: String.utf8EncodeChar c ∧
    cut ≠ String.utf8EncodeChar c

theorem IsBadRun.ne_nil {bad rest : List UInt8} (h : IsBadRun bad rest) : bad ≠ [] := by
  rcases h.shape with hone | ⟨hne, _⟩
  · rintro rfl
    simp at hone
  · exact hne

/-- At most one character stands in front. -/
theorem eq_of_prefix {c c' : Char} {octets : List UInt8}
    (h : String.utf8EncodeChar c <+: octets) (h' : String.utf8EncodeChar c' <+: octets) :
    c = c' := by
  have hdecoded : ∀ {d : Char}, String.utf8EncodeChar d <+: octets →
      octets.toByteArray.utf8DecodeChar? 0 = some d := by
    rintro d ⟨rest, rfl⟩
    rw [List.toByteArray_append, ByteArray.utf8DecodeChar?_utf8EncodeChar_append]
  exact Option.some.inj ((hdecoded h).symm.trans (hdecoded h'))

/-- The longest bad run is the only one. -/
theorem IsBadRun.longest_front {bad rest bad' rest' : List UInt8} (h : IsBadRun bad rest)
    (h' : IsBadRun bad' rest') (heq : bad ++ rest = bad' ++ rest') : bad' <+: bad := by
  have hfront : bad <+: bad ++ rest := List.prefix_append bad rest
  have hfront' : bad' <+: bad ++ rest := heq ▸ List.prefix_append bad' rest'
  rcases List.prefix_or_prefix_of_prefix hfront hfront' with ⟨more, rfl⟩ | hshorter
  · cases more with
    | nil => simp
    | cons octet more =>
      have hmore : octet :: more <+: rest := by
        rw [List.append_assoc] at heq
        exact ⟨rest', (List.append_cancel_left heq).symm⟩
      have hbegins : Begins (bad ++ octet :: more) := by
        rcases h'.shape with hone | ⟨_, hbegins⟩
        · have := List.length_pos_iff.mpr h.ne_nil
          simp at hone
          omega
        · exact hbegins
      exact absurd hbegins (h.longest _ (List.cons_ne_nil octet more) hmore)
  · exact hshorter

theorem Reads.unique {octets : List UInt8} {cs cs' : List Char} (h : Reads octets cs)
    (h' : Reads octets cs') : cs = cs' := by
  induction h generalizing cs' with
  | nil =>
    generalize hoctets : ([] : List UInt8) = octets at h'
    cases h' with
    | nil => rfl
    | character c _ => simp at hoctets
    | bad hbad _ => exact absurd (List.append_eq_nil_iff.mp hoctets.symm).1 hbad.ne_nil
  | @character rest cs c hrest ih =>
    generalize hoctets : String.utf8EncodeChar c ++ rest = octets at h'
    cases h' with
    | nil => simp at hoctets
    | character c' hrest' =>
      obtain rfl : c = c' := eq_of_prefix ⟨_, hoctets⟩ (List.prefix_append _ _)
      rw [ih (List.append_cancel_left hoctets ▸ hrest')]
    | bad hbad _ => exact absurd ⟨_, hoctets⟩ (hbad.noCharacter c)
  | @bad bad rest cs hbad hrest ih =>
    generalize hoctets : bad ++ rest = octets at h'
    cases h' with
    | nil => exact absurd (List.append_eq_nil_iff.mp hoctets).1 hbad.ne_nil
    | character c' _ => exact absurd ⟨_, hoctets.symm⟩ (hbad.noCharacter c')
    | bad hbad' hrest' =>
      obtain rfl := (hbad'.longest_front hbad hoctets.symm).eq_of_length_le
        (hbad.longest_front hbad' hoctets).length_le
      rw [ih (List.append_cancel_left hoctets ▸ hrest')]

theorem Reads.length_le {octets : List UInt8} {cs : List Char} (h : Reads octets cs) :
    cs.length ≤ octets.length := by
  induction h with
  | nil => exact Nat.le_refl 0
  | character c _ ih =>
    have := List.length_pos_iff.mpr (String.utf8EncodeChar_ne_nil (c := c))
    simp only [List.length_cons, List.length_append]
    omega
  | bad hbad _ ih =>
    have := List.length_pos_iff.mpr hbad.ne_nil
    simp only [List.length_cons, List.length_append]
    omega

/-- Well-formed octets are read as the text they encode. -/
theorem reads_encoded (cs : List Char) : Reads (cs.flatMap String.utf8EncodeChar) cs := by
  induction cs with
  | nil => exact .nil
  | cons c rest ih => exact .character c ih

/-- The last `k` octets of the character with the number `n`, each with six bits of it. -/
def tailOctets : Nat → Nat → List UInt8
  | 0, _ => []
  | k + 1, n => UInt8.ofNat (0x80 + n / 64 ^ k % 64) :: tailOctets k n

/-- The character with the number `n` has `k` octets after the first one, which is `octet`. -/
def Leads (octet : UInt8) (k n : Nat) : Prop :=
  (k = 0 ∧ n < 0x80 ∧ octet.toNat = n) ∨
  (k = 1 ∧ 0x80 ≤ n ∧ n < 0x800 ∧ octet.toNat = 0xC0 + n / 64) ∨
  (k = 2 ∧ 0x800 ≤ n ∧ n < 0x10000 ∧ octet.toNat = 0xE0 + n / 4096) ∨
  (k = 3 ∧ 0x10000 ≤ n ∧ octet.toNat = 0xF0 + n / 262144)

theorem Leads.unique {octet octet' : UInt8} {k k' n : Nat} (h : Leads octet k n)
    (h' : Leads octet' k' n) : octet = octet' ∧ k = k' := by
  unfold Leads at h h'
  refine ⟨UInt8.toNat_inj.mp ?_, ?_⟩
  · omega
  · omega

theorem toNat_ofNat_octet {n : Nat} (h : n < 256) : (UInt8.ofNat n).toNat = n := by
  rw [UInt8.toNat_ofNat', Nat.mod_eq_of_lt h]

theorem toNat_ofNat_char {n : Nat} (h : n.isValidChar) : (Char.ofNat n).toNat = n := by
  rw [Char.ofNat, dif_pos h]
  rfl

theorem exists_leads (c : Char) :
    ∃ octet k, Leads octet k c.toNat ∧
      String.utf8EncodeChar c = octet :: tailOctets k c.toNat := by
  have hvalid : c.toNat.isValidChar := c.valid
  have hval : c.val.toNat = c.toNat := rfl
  unfold Nat.isValidChar at hvalid
  simp only [String.utf8EncodeChar, hval]
  generalize c.toNat = n at hvalid
  by_cases hone : n ≤ 0x7F
  · refine ⟨UInt8.ofNat n, 0, .inl ⟨rfl, by omega, toNat_ofNat_octet (by omega)⟩, ?_⟩
    simp [hone, tailOctets]
  by_cases htwo : n ≤ 0x7FF
  · refine ⟨UInt8.ofNat (0xC0 + n / 64), 1,
      .inr (.inl ⟨rfl, by omega, by omega, toNat_ofNat_octet (by omega)⟩), ?_⟩
    have hfirst : n / 64 % 32 + 192 = 0xC0 + n / 64 := by omega
    simp [hone, htwo, tailOctets, hfirst, Nat.add_comm]
  by_cases hthree : n ≤ 0xFFFF
  · refine ⟨UInt8.ofNat (0xE0 + n / 4096), 2,
      .inr (.inr (.inl ⟨rfl, by omega, by omega, toNat_ofNat_octet (by omega)⟩)), ?_⟩
    have hfirst : n / 4096 % 16 + 224 = 0xE0 + n / 4096 := by omega
    simp [hone, htwo, hthree, tailOctets, hfirst, Nat.add_comm]
  · refine ⟨UInt8.ofNat (0xF0 + n / 262144), 3,
      .inr (.inr (.inr ⟨rfl, by omega, toNat_ofNat_octet (by omega)⟩)), ?_⟩
    have hfirst : n / 262144 % 8 + 240 = 0xF0 + n / 262144 := by omega
    simp [hone, htwo, hthree, tailOctets, hfirst, Nat.add_comm]

theorem encoding_of_leads {c : Char} {octet : UInt8} {k : Nat} (h : Leads octet k c.toNat) :
    String.utf8EncodeChar c = octet :: tailOctets k c.toNat := by
  obtain ⟨octet', k', h', heq⟩ := exists_leads c
  obtain ⟨rfl, rfl⟩ := h.unique h'
  exact heq

theorem leads_of_prefix {octet : UInt8} {c : Char} (h : [octet] <+: String.utf8EncodeChar c) :
    ∃ k, Leads octet k c.toNat := by
  obtain ⟨octet', k, hleads, heq⟩ := exists_leads c
  obtain rfl : octet = octet' := by simpa [heq] using h
  exact ⟨k, hleads⟩

/-- The characters that a sequence under way can still become: those whose number starts with the
bits read so far and goes on with an octet in range. -/
def Pending.Covers (p : Pending) (n : Nat) : Prop :=
  n / 64 ^ p.wanted = p.bits ∧ p.low ≤ 0x80 + n / 64 ^ (p.wanted - 1) % 64 ∧
    0x80 + n / 64 ^ (p.wanted - 1) % 64 ≤ p.high

/-- What is asked of the next octet is within what later octets can be. -/
structure Pending.WellFormed (p : Pending) : Prop where
  wanted : 1 ≤ p.wanted
  low : 0x80 ≤ p.low
  range : p.low ≤ p.high
  high : p.high ≤ 0xBF

/-- The octets `run` have been read and the sequence is under way: the characters that start with
`run` are those that it covers. -/
structure Pending.Follows (p : Pending) (run : List UInt8) : Prop extends p.WellFormed where
  valid : ∀ n, p.Covers n → n.isValidChar
  encoded : ∀ c : Char, p.Covers c.toNat →
    String.utf8EncodeChar c = run ++ tailOctets p.wanted c.toNat
  covers : ∀ c, run <+: String.utf8EncodeChar c → p.Covers c.toNat

theorem encoding_of_single {octet : UInt8} {c : Char} (h : Lead.of octet = .single c) :
    String.utf8EncodeChar c = [octet] := by
  have hlow : octet.toNat < 0x80 ∧ Char.ofNat octet.toNat = c := by
    revert h
    fun_cases Lead.of octet
    all_goals rintro ⟨⟩
    exact ⟨by assumption, rfl⟩
  obtain ⟨hlow, rfl⟩ := hlow
  apply encoding_of_leads (k := 0)
  rw [toNat_ofNat_char (.inl (by omega))]
  exact .inl ⟨rfl, hlow, rfl⟩

theorem not_begins_of_never {octet : UInt8} (h : Lead.of octet = .never) : ¬ Begins [octet] := by
  rintro ⟨c, hc⟩
  obtain ⟨k, hleads⟩ := leads_of_prefix hc
  have hvalid : c.toNat.isValidChar := c.valid
  unfold Nat.isValidChar at hvalid
  unfold Leads at hleads
  revert h
  fun_cases Lead.of octet
  all_goals rintro ⟨⟩
  · omega
  · omega

theorem wellFormed_lead {octet : UInt8} {p : Pending} (h : Lead.of octet = .start p) :
    p.WellFormed := by
  revert h
  fun_cases Lead.of octet
  all_goals rintro ⟨⟩
  all_goals exact ⟨by simp, by simp, by simp, by simp⟩

theorem leads_of_covers {octet : UInt8} {p : Pending} (h : Lead.of octet = .start p) {n : Nat}
    (hcovers : p.Covers n) : n.isValidChar ∧ Leads octet p.wanted n := by
  unfold Nat.isValidChar Leads
  revert h
  fun_cases Lead.of octet
  all_goals rintro ⟨⟩
  all_goals
    simp only [Pending.Covers, Nat.reduceSub, Nat.reducePow, true_and] at hcovers ⊢
    omega

theorem covers_of_leads {octet : UInt8} {p : Pending} (h : Lead.of octet = .start p) {k n : Nat}
    (hvalid : n.isValidChar) (hleads : Leads octet k n) : p.Covers n := by
  unfold Nat.isValidChar at hvalid
  unfold Leads at hleads
  revert h
  fun_cases Lead.of octet
  all_goals rintro ⟨⟩
  all_goals
    simp only [Pending.Covers, Nat.reduceSub, Nat.reducePow]
    omega

theorem follows_lead {octet : UInt8} {p : Pending} (h : Lead.of octet = .start p) :
    p.Follows [octet] where
  toWellFormed := wellFormed_lead h
  valid n hcovers := (leads_of_covers h hcovers).1
  encoded c hcovers := encoding_of_leads (leads_of_covers h hcovers).2
  covers c hc := by
    obtain ⟨k, hleads⟩ := leads_of_prefix hc
    exact covers_of_leads h c.valid hleads

namespace Pending

variable {p : Pending} {run : List UInt8} {octet : UInt8}

/-- The octets asked for as one number: the bits read so far, then those of the next octet. -/
theorem WellFormed.covers_iff (h : p.WellFormed) (n : Nat) :
    p.Covers n ↔ n / 64 ^ (p.wanted - 1) / 64 = p.bits ∧
      p.low ≤ 0x80 + n / 64 ^ (p.wanted - 1) % 64 ∧
      0x80 + n / 64 ^ (p.wanted - 1) % 64 ≤ p.high := by
  have hpow : 64 ^ p.wanted = 64 ^ (p.wanted - 1) * 64 := by
    rw [← Nat.pow_succ, Nat.succ_eq_add_one, Nat.sub_add_cancel h.wanted]
  rw [Covers, hpow, Nat.div_div_eq_div_mul]

theorem WellFormed.tailOctets_eq (h : p.WellFormed) (n : Nat) :
    tailOctets p.wanted n =
      UInt8.ofNat (0x80 + n / 64 ^ (p.wanted - 1) % 64) :: tailOctets (p.wanted - 1) n := by
  rw [← tailOctets, Nat.succ_eq_add_one, Nat.sub_add_cancel h.wanted]

/-- The six bits of an octet that is admitted. -/
theorem WellFormed.octet_eq (h : p.WellFormed) (hadmits : p.admits octet = true) :
    octet.toNat = 0x80 + octet.toNat % 64 ∧ p.low ≤ octet.toNat ∧ octet.toNat ≤ p.high := by
  have hlow := h.low
  have hhigh := h.high
  simp only [admits, Bool.and_eq_true, decide_eq_true_eq] at hadmits
  omega

namespace Follows

/-- There is a character that starts like this, and it goes on. -/
theorem exists_begun (h : p.Follows run) :
    ∃ c, run <+: String.utf8EncodeChar c ∧ run ≠ String.utf8EncodeChar c := by
  have hlow := h.low
  have hrange := h.range
  have hhigh := h.high
  let n := (p.bits * 64 + (p.low - 0x80)) * 64 ^ (p.wanted - 1)
  have hcovers : p.Covers n := by
    rw [h.covers_iff, Nat.mul_div_cancel _ (Nat.pow_pos (by decide))]
    omega
  have hnumber := toNat_ofNat_char (h.valid n hcovers)
  have hencoded := h.encoded (Char.ofNat n) (hnumber.symm ▸ hcovers)
  refine ⟨Char.ofNat n, ⟨_, hencoded.symm⟩, ?_⟩
  rw [hencoded, h.tailOctets_eq]
  simp

/-- A character that starts with `run` has the six bits of its next octet in place. -/
theorem next_octet (h : p.Follows run) {c : Char}
    (hc : run ++ [octet] <+: String.utf8EncodeChar c) :
    p.Covers c.toNat ∧ octet.toNat = 0x80 + c.toNat / 64 ^ (p.wanted - 1) % 64 := by
  have hcovers := h.covers c ((List.prefix_append run [octet]).trans hc)
  refine ⟨hcovers, ?_⟩
  rw [h.encoded c hcovers, h.tailOctets_eq, List.prefix_append_right_inj] at hc
  rw [(List.cons_prefix_cons.mp hc).1, toNat_ofNat_octet (by omega)]

theorem admits_of_begins (h : p.Follows run) (hbegins : Begins (run ++ [octet])) :
    p.admits octet = true := by
  obtain ⟨c, hc⟩ := hbegins
  obtain ⟨hcovers, hoctet⟩ := h.next_octet hc
  simp only [admits, hoctet, hcovers.2.1, hcovers.2.2, decide_true, Bool.and_true]

theorem encoding_of_push (h : p.Follows run) (hadmits : p.admits octet = true) {c : Char}
    (hpush : p.push octet = .inl c) : String.utf8EncodeChar c = run ++ [octet] := by
  have hwanted := h.wanted
  obtain ⟨hoctet, hlow, hhigh⟩ := h.octet_eq hadmits
  simp only [push] at hpush
  split_ifs at hpush with hlast
  obtain rfl : Char.ofNat (p.bits * 64 + octet.toNat % 64) = c := by simpa using hpush
  have hone : p.wanted - 1 = 0 := by omega
  have hcovers : p.Covers (p.bits * 64 + octet.toNat % 64) := by
    rw [h.covers_iff, hone]
    omega
  have hnumber := toNat_ofNat_char (h.valid _ hcovers)
  rw [h.encoded _ (hnumber.symm ▸ hcovers), h.tailOctets_eq, hone, hnumber]
  have hbits : 0x80 + (p.bits * 64 + octet.toNat % 64) / 64 ^ 0 % 64 = octet.toNat := by omega
  rw [hbits, UInt8.ofNat_toNat, tailOctets]

theorem push (h : p.Follows run) (hadmits : p.admits octet = true) {q : Pending}
    (hpush : p.push octet = .inr q) : q.Follows (run ++ [octet]) := by
  obtain ⟨hoctet, hlow, hhigh⟩ := h.octet_eq hadmits
  simp only [Pending.push] at hpush
  split_ifs at hpush with hlast
  obtain rfl := Sum.inr.inj hpush
  -- the sequence is the old one, with the octet as the next one
  have hcovers : ∀ n, Covers ⟨p.wanted - 1, 0x80, 0xBF, p.bits * 64 + octet.toNat % 64⟩ n ↔
      p.Covers n ∧ octet.toNat = 0x80 + n / 64 ^ (p.wanted - 1) % 64 := by
    intro n
    rw [h.covers_iff]
    simp only [Covers]
    omega
  refine ⟨⟨?_, ?_, ?_, ?_⟩, ?_, ?_, ?_⟩
  · show 1 ≤ p.wanted - 1
    omega
  · exact Nat.le_refl _
  · show 0x80 ≤ 0xBF
    omega
  · exact Nat.le_refl _
  · intro n hn
    exact h.valid n ((hcovers n).mp hn).1
  · intro c hc
    obtain ⟨hc, hnext⟩ := (hcovers c.toNat).mp hc
    rw [h.encoded c hc, h.tailOctets_eq, ← hnext, UInt8.ofNat_toNat, List.append_assoc,
      List.singleton_append]
  · intro c hc
    exact (hcovers c.toNat).mpr (h.next_octet hc)

end Follows

end Pending

/-- What is decoded from here on, with a sequence under way or none. -/
def resume (pending : Option Pending) (octets : List UInt8) : List Char :=
  (octets.foldl Decoder.feed ⟨[], pending⟩).finish

theorem feed_eq (written : List Char) (pending : Option Pending) (octet : UInt8) :
    Decoder.feed ⟨written, pending⟩ octet =
      ⟨(Decoder.feed ⟨[], pending⟩ octet).written ++ written,
        (Decoder.feed ⟨[], pending⟩ octet).pending⟩ := by
  have hlead : ∀ before : List Char, Decoder.lead (before ++ written) octet =
      ⟨(Decoder.lead before octet).written ++ written, (Decoder.lead before octet).pending⟩ := by
    intro before
    unfold Decoder.lead
    cases Lead.of octet with
    | single c => rfl
    | start p => rfl
    | never => rfl
  cases pending with
  | none => exact hlead []
  | some p =>
    simp only [Decoder.feed]
    split
    · cases p.push octet with
      | inl c => rfl
      | inr q => rfl
    · exact hlead [replacement]

/-- What was written before stays as it is. -/
theorem foldl_feed_eq (written : List Char) (pending : Option Pending) (octets : List UInt8) :
    octets.foldl Decoder.feed ⟨written, pending⟩ =
      ⟨(octets.foldl Decoder.feed ⟨[], pending⟩).written ++ written,
        (octets.foldl Decoder.feed ⟨[], pending⟩).pending⟩ := by
  induction octets generalizing written pending with
  | nil => rfl
  | cons octet rest ih =>
    rw [List.foldl_cons, List.foldl_cons, feed_eq]
    generalize Decoder.feed ⟨[], pending⟩ octet = d
    obtain ⟨new, next⟩ := d
    rw [ih (new ++ written), ih new, List.append_assoc]

theorem finish_foldl_feed (written : List Char) (pending : Option Pending)
    (octets : List UInt8) :
    (octets.foldl Decoder.feed ⟨written, pending⟩).finish =
      written.reverse ++ resume pending octets := by
  rw [foldl_feed_eq, resume]
  generalize octets.foldl Decoder.feed ⟨[], pending⟩ = d
  unfold Decoder.finish
  cases d.pending with
  | none => simp
  | some p => simp

theorem resume_none_cons (octet : UInt8) (rest : List UInt8) :
    resume none (octet :: rest) =
      match Lead.of octet with
      | .single c => c :: resume none rest
      | .start p => resume (some p) rest
      | .never => replacement :: resume none rest := by
  simp only [resume, List.foldl_cons, Decoder.feed, Decoder.lead]
  cases Lead.of octet with
  | single c => exact finish_foldl_feed [c] none rest
  | start p => rfl
  | never => exact finish_foldl_feed [replacement] none rest

theorem resume_some_cons (p : Pending) (octet : UInt8) (rest : List UInt8) :
    resume (some p) (octet :: rest) =
      if p.admits octet then
        match p.push octet with
        | .inl c => c :: resume none rest
        | .inr q => resume (some q) rest
      else replacement :: resume none (octet :: rest) := by
  simp only [resume, List.foldl_cons, Decoder.feed]
  split
  · cases p.push octet with
    | inl c => exact finish_foldl_feed [c] none rest
    | inr q => rfl
  · exact finish_foldl_feed [replacement] none (octet :: rest)

/-- A sequence that the next octet does not go on with is a bad run. -/
theorem Pending.Follows.isBadRun {p : Pending} {run rest : List UInt8} (h : p.Follows run)
    (hne : run ≠ []) (hends : ∀ octet ∈ rest.head?, p.admits octet = false) :
    IsBadRun run rest := by
  obtain ⟨c, hc, hproper⟩ := h.exists_begun
  have hunfinished : ∀ d, ¬ String.utf8EncodeChar d <+: run := by
    intro d hd
    obtain rfl : d = c := eq_of_prefix (hd.trans hc) (List.prefix_refl _)
    exact hproper (hc.eq_of_length_le hd.length_le)
  have hlongest : ∀ more, more ≠ [] → more <+: rest → ¬ Begins (run ++ more) := by
    intro more hmore hrest hbegins
    obtain ⟨octet, more, rfl⟩ := List.exists_cons_of_ne_nil hmore
    obtain ⟨after, rfl⟩ := hrest
    obtain ⟨d, hd⟩ := hbegins
    have hfront : run ++ [octet] <+: run ++ octet :: more := ⟨more, by simp⟩
    have hadmits := h.admits_of_begins ⟨d, hfront.trans hd⟩
    rw [hends octet rfl] at hadmits
    exact absurd hadmits Bool.false_ne_true
  refine ⟨?_, .inr ⟨hne, c, hc⟩, hlongest⟩
  intro d hd
  have hrun : run <+: run ++ rest := List.prefix_append run rest
  rcases List.prefix_or_prefix_of_prefix hd hrun with hshort | ⟨more, hmore⟩
  · exact hunfinished d hshort
  · cases more with
    | nil =>
      rw [List.append_nil] at hmore
      exact hunfinished d (hmore ▸ List.prefix_refl _)
    | cons octet more =>
      rw [← hmore, List.prefix_append_right_inj] at hd
      exact hlongest _ (List.cons_ne_nil octet more) hd ⟨d, hmore ▸ List.prefix_refl _⟩

theorem isBadRun_never {octet : UInt8} (h : Lead.of octet = .never) (rest : List UInt8) :
    IsBadRun [octet] rest := by
  have hno := not_begins_of_never h
  refine ⟨?_, .inl rfl, ?_⟩
  · rintro c hc
    have hne : String.utf8EncodeChar c ≠ [] := String.utf8EncodeChar_ne_nil
    obtain ⟨first, more, hcons⟩ := List.exists_cons_of_ne_nil hne
    rw [hcons, List.singleton_append, List.cons_prefix_cons] at hc
    obtain ⟨rfl, _⟩ := hc
    exact hno ⟨c, more, by rw [hcons, List.singleton_append]⟩
  · rintro more _ _ ⟨c, hc⟩
    exact hno ⟨c, (List.prefix_append [octet] more).trans hc⟩

/-- Reading octets, with a sequence under way or none, decodes them as they fall into characters
and bad runs. -/
theorem reads_resume (octets : List UInt8) :
    Reads octets (resume none octets) ∧
    ∀ {run : List UInt8} {p : Pending}, run ≠ [] → p.Follows run →
      Reads (run ++ octets) (resume (some p) octets) := by
  induction octets with
  | nil =>
    refine ⟨.nil, ?_⟩
    intro run p hne hfollows
    exact .bad (hfollows.isBadRun hne (by simp)) .nil
  | cons octet rest ih =>
    obtain ⟨hafresh, hunderway⟩ := ih
    have hnone : Reads (octet :: rest) (resume none (octet :: rest)) := by
      rw [resume_none_cons]
      cases hlead : Lead.of octet with
      | single c =>
        have hread := Reads.character c hafresh
        rwa [encoding_of_single hlead] at hread
      | start p => exact hunderway (List.cons_ne_nil octet []) (follows_lead hlead)
      | never => exact .bad (isBadRun_never hlead rest) hafresh
    refine ⟨hnone, ?_⟩
    intro run p hne hfollows
    rw [resume_some_cons]
    split
    · rename_i hadmits
      cases hpush : p.push octet with
      | inl c =>
        have hread := Reads.character c hafresh
        rwa [hfollows.encoding_of_push hadmits hpush, List.append_assoc] at hread
      | inr q =>
        have hread := hunderway (by simp) (hfollows.push hadmits hpush)
        rwa [List.append_assoc] at hread
    · rename_i hrefuses
      have hends : ∀ o ∈ (octet :: rest).head?, p.admits o = false := by
        simpa using hrefuses
      exact .bad (hfollows.isBadRun hne hends) hnone

/-- Decoding gives the one way in which octets can be read. -/
theorem reads_iff (octets : List UInt8) (cs : List Char) :
    Reads octets cs ↔ decode octets = cs := by
  have hread : Reads octets (decode octets) := (reads_resume octets).1
  constructor
  · intro h
    exact hread.unique h
  · rintro rfl
    exact hread

theorem decode_encoded (cs : List Char) : decode (cs.flatMap String.utf8EncodeChar) = cs :=
  (reads_iff _ _).mp (reads_encoded cs)

theorem exists_follows {octets : List UInt8} {p : Pending}
    (h : (octets.foldl Decoder.feed Decoder.start).pending = some p) :
    ∃ run, run ≠ [] ∧ run <:+ octets ∧ p.Follows run := by
  -- the octets read so far end in those of the sequence under way
  induction octets using List.reverseRecOn generalizing p with
  | nil => simp [Decoder.start] at h
  | append_singleton before octet ih =>
    rw [List.foldl_append, List.foldl_cons, List.foldl_nil] at h
    generalize before.foldl Decoder.feed Decoder.start = d at h ih
    have hlead : ∀ written, (Decoder.lead written octet).pending = some p →
        ∃ run, run ≠ [] ∧ run <:+ before ++ [octet] ∧ p.Follows run := by
      intro written hp
      unfold Decoder.lead at hp
      cases hoctet : Lead.of octet with
      | single c => simp [hoctet] at hp
      | start q =>
        obtain rfl : q = p := by simpa [hoctet] using hp
        exact ⟨[octet], by simp, List.suffix_append before [octet], follows_lead hoctet⟩
      | never => simp [hoctet] at hp
    unfold Decoder.feed at h
    cases hpending : d.pending with
    | none =>
      rw [hpending] at h
      exact hlead _ h
    | some q =>
      simp only [hpending] at h
      split at h
      · rename_i hadmits
        obtain ⟨run, _, ⟨earlier, rfl⟩, hfollows⟩ := ih hpending
        cases hpush : q.push octet with
        | inl c => simp [hpush] at h
        | inr q' =>
          obtain rfl : q' = p := by simpa [hpush] using h
          exact ⟨run ++ [octet], by simp, ⟨earlier, by simp⟩, hfollows.push hadmits hpush⟩
      · exact hlead _ h

theorem decode_append {a : List UInt8} (h : ¬ EndsCut a) (b : List UInt8) :
    decode (a ++ b) = decode a ++ decode b := by
  have hpending : (a.foldl Decoder.feed Decoder.start).pending = none := by
    cases hp : (a.foldl Decoder.feed Decoder.start).pending with
    | none => rfl
    | some p =>
      obtain ⟨run, hne, hends, hfollows⟩ := exists_follows hp
      obtain ⟨c, hc, hproper⟩ := hfollows.exists_begun
      exact absurd ⟨run, c, hne, hends, hc, hproper⟩ h
  unfold decode
  rw [List.foldl_append]
  generalize a.foldl Decoder.feed Decoder.start = d at hpending
  obtain ⟨written, pending⟩ := d
  obtain rfl : pending = none := hpending
  exact finish_foldl_feed written none b

end Text.Utf8

open Text.Utf8

theorem data_extract (source : Source) (start stop : Nat) :
    (source.extract start stop).data.toList = (source.data.toList.take stop).drop start := by
  simp [List.drop_take]

/-- The octets of a text are those of its characters. -/
theorem data_toUTF8 (s : String) :
    s.toUTF8.data.toList = s.toList.flatMap String.utf8EncodeChar := by
  rw [String.toUTF8, ← String.utf8Encode_toList, List.utf8Encode, List.data_toByteArray]

/-- A node covers the characters and bad runs of its octets, each bad run as one replacement, and
no more characters than octets. Between the boundaries of characters of a text that is its part
there, and octets that do not break off within a character are decoded apart from what follows. -/
theorem text_of_covered_octets :
    (∀ (source : Source) (n : Node),
      let octets := (source.data.toList.take n.span.endByte).drop n.span.startByte
      n.text source = String.ofList (decode octets) ∧
      (∀ cs, Reads octets cs ↔ (n.text source).toList = cs) ∧
      (n.text source).length ≤ octets.length) ∧
    (∀ (s : String) (i j : s.Pos) (n : Node), n.span.startByte = i.offset.byteIdx →
      n.span.endByte = j.offset.byteIdx → n.text s.toUTF8 = s.extract i j) ∧
    ∀ a b : List UInt8, ¬ EndsCut a → decode (a ++ b) = decode a ++ decode b := by
  refine ⟨?_, ?_, ?_⟩
  · intro source n octets
    have htext : n.text source = String.ofList (decode octets) := by
      rw [Node.text, Source.text, Source.slice, data_extract]
    rw [htext, String.toList_ofList, String.length_ofList]
    exact ⟨rfl, reads_iff octets, ((reads_iff octets _).mpr rfl).length_le⟩
  · intro s i j n hstart hstop
    rw [Node.text, Source.text, Source.slice, hstart, hstop, String.toUTF8,
      ← String.toByteArray_extract, ← String.toUTF8, data_toUTF8, decode_encoded,
      String.ofList_toList]
  · intro a b h
    exact decode_append h b

/-- The node covers the second of three characters. -/
theorem text_of_covered_octets_in_price :
    let n := Node.mk "identifier" true none ⟨1, 3, ⟨0, 1⟩, ⟨0, 3⟩⟩ []
    n.text "aé€".toUTF8 = "é" ∧ ¬ EndsCut [0xFF] ∧
      decode ([0xFF] ++ [0xE2, 0x82, 0xAC]) = decode [0xFF] ++ ['€'] := by
  intro n
  obtain ⟨_, hpart, happart⟩ := text_of_covered_octets
  have hcut : ¬ EndsCut [0xFF] := by
    rintro ⟨cut, c, hne, hends, hc, _⟩
    rcases List.suffix_cons_iff.mp hends with rfl | hnil
    · exact not_begins_of_never rfl ⟨c, hc⟩
    · exact hne (List.suffix_nil.mp hnil)
  refine ⟨?_, hcut, happart [0xFF] [0xE2, 0x82, 0xAC] hcut⟩
  let i : "aé€".Pos := ⟨⟨1⟩, by decide⟩
  let j : "aé€".Pos := ⟨⟨3⟩, by decide⟩
  exact hpart "aé€" i j n rfl rfl

end CallAtlas
