import Conformance.Machine.Host
import Conformance.Proofs.Outcome.Judgement
import Conformance.Proofs.Text.Parts
/-!
# Markers in raw output

Output is bytes, and a marker is looked for in the text that they are read as. No bytes around the
marker make a difference to that. A first byte of a character is no continuation byte, so it ends
whatever sequence a scan is partway through, and the scan starts afresh with it. The other way
round, every character of the text that is not the replacement character stands for its own
encoding.
-/

namespace Conformance.Utf8

/-! ## Characters stand out -/

/-- Partway through a character, a scan waits for continuation bytes only. -/
def State.AwaitsContinuation : State → Prop
  | .start => True
  | .partway _ low high _ => 0x80 ≤ low.toNat ∧ high.toNat ≤ 0xBF

theorem State.awaitsContinuation_start : State.start.AwaitsContinuation := trivial

theorem awaitsContinuation_lead (b : UInt8) : (lead b).2.AwaitsContinuation := by
  rcases lead_cases b with ⟨c, h, -⟩ | h | ⟨missing, low, high, value, h, hopens⟩
  · rw [h]
    exact trivial
  · rw [h]
    exact trivial
  · rw [h]
    exact ⟨hopens.le_low, hopens.high_le⟩

theorem awaitsContinuation_step (s : State) (b : UInt8) : (step s b).2.AwaitsContinuation := by
  cases s with
  | start => exact awaitsContinuation_lead b
  | partway missing low high value =>
    rw [step]
    by_cases hb : low ≤ b ∧ b ≤ high
    · rw [if_pos hb]
      cases missing with
      | zero => exact trivial
      | succ missing => exact ⟨by decide, by decide⟩
    · rw [if_neg hb]
      exact awaitsContinuation_lead b

/-- The first byte of a character continues no other one. -/
theorem exists_encodeChar_eq_cons (c : Char) : ∃ b bytes, String.utf8EncodeChar c = b :: bytes ∧
    (b.toNat < 0x80 ∨ 0xBF < b.toNat) := by
  have hlead : ∀ {n}, 0xBF < n → n < 256 → 0xBF < (UInt8.ofNat n).toNat := by
    intro n h h'
    rw [UInt8.toNat_ofNat_of_lt' h']
    exact h
  unfold String.utf8EncodeChar
  dsimp only
  generalize c.val.toNat = v
  split
  · refine ⟨_, _, rfl, .inl ?_⟩
    rw [UInt8.toNat_ofNat_of_lt' (by omega : v < 256)]
    omega
  split
  · exact ⟨_, _, rfl, .inr (hlead (by omega) (by omega))⟩
  split
  · exact ⟨_, _, rfl, .inr (hlead (by omega) (by omega))⟩
  · exact ⟨_, _, rfl, .inr (hlead (by omega) (by omega))⟩

/-- A scan takes the bytes of a character as that character wherever it stands. -/
theorem scanFrom_encodeChar {s : State} (hs : s.AwaitsContinuation) (c : Char)
    (bytes : List UInt8) :
    scanFrom s (String.utf8EncodeChar c ++ bytes)
      = finish s ++ some c :: scanFrom .start bytes := by
  cases s with
  | start => exact scanFrom_utf8EncodeChar c bytes
  | partway missing low high value =>
    obtain ⟨b, rest, hb, hrange⟩ := exists_encodeChar_eq_cons c
    have hout : ¬ (low ≤ b ∧ b ≤ high) := by
      obtain ⟨hlow, hhigh⟩ := hs
      rw [UInt8.le_iff_toNat_le, UInt8.le_iff_toNat_le]
      omega
    rw [hb, List.cons_append, scanFrom_afresh hout, ← List.cons_append, ← hb,
      scanFrom_utf8EncodeChar]
    rfl

theorem scanFrom_append_encodeChar {s : State} (hs : s.AwaitsContinuation) (before : List UInt8)
    (c : Char) (bytes : List UInt8) :
    scanFrom s (before ++ (String.utf8EncodeChar c ++ bytes))
      = scanFrom s before ++ some c :: scanFrom .start bytes := by
  induction before generalizing s with
  | nil => exact scanFrom_encodeChar hs c bytes
  | cons b before ih =>
    rw [List.cons_append, scanFrom_cons, scanFrom_cons, ih (awaitsContinuation_step s b),
      List.append_assoc]

/-- A text is read as itself whatever bytes surround it. -/
theorem decodeLossy_surrounded (before : List UInt8) {cs : List Char} (hne : cs ≠ [])
    (behind : List UInt8) :
    decodeLossy (before ++ encode cs ++ behind)
      = decodeLossy before ++ cs ++ decodeLossy behind := by
  obtain ⟨c, cs, rfl⟩ := List.exists_cons_of_ne_nil hne
  have hscan : scan (before ++ encode (c :: cs) ++ behind)
      = scan before ++ ((c :: cs).map some ++ scan behind) := by
    rw [encode, List.flatMap_cons, ← encode, List.append_assoc, List.append_assoc, scan,
      scanFrom_append_encodeChar State.awaitsContinuation_start, scanFrom_encode]
    rfl
  have hself : ((c :: cs).map some).map (·.getD replacement) = c :: cs := by
    rw [List.map_map]
    exact List.map_id _
  rw [decodeLossy, hscan, List.map_append, List.map_append, hself, List.append_assoc]
  rfl

/-! ## Characters stand for themselves -/

theorem Parts.prefix_encode {cs : List Char} {bytes : List UInt8} {items : List Item}
    (h : Parts bytes (cs.map some ++ items)) : encode cs <+: bytes := by
  induction cs generalizing bytes with
  | nil => exact List.nil_prefix
  | cons c cs ih =>
    cases h with
    | char c h =>
      rw [encode, List.flatMap_cons, ← encode, List.prefix_append_right_inj]
      exact ih h

theorem Parts.infix_encode {cs : List Char} {bytes : List UInt8} {before behind : List Item}
    (h : Parts bytes (before ++ (cs.map some ++ behind))) : encode cs <:+: bytes := by
  induction before generalizing bytes with
  | nil => exact h.prefix_encode.isInfix
  | cons item before ih =>
    cases h with
    | char c h => exact (ih h).trans (List.suffix_append _ _).isInfix
    | invalid hpart h => exact (ih h).trans (List.suffix_append _ _).isInfix

/-- Items that are read as characters other than the replacement character are these. -/
theorem eq_map_some_of_read {cs : List Char} {items : List Item}
    (h : items.map (·.getD replacement) = cs) (hcs : replacement ∉ cs) : items = cs.map some := by
  induction items generalizing cs with
  | nil =>
    cases h
    rfl
  | cons item items ih =>
    subst h
    rw [List.map_cons, List.mem_cons, not_or] at hcs
    rcases item with _ | c
    · exact absurd rfl hcs.1
    · rw [List.map_cons, List.map_cons, ← ih rfl hcs.2]
      rfl

/-- **Texts in raw bytes.** A text without replacement characters occurs in what some bytes are read
as exactly if its encoding occurs among the bytes. -/
theorem infix_decodeLossy_iff {cs : List Char} (hne : cs ≠ []) (hcs : replacement ∉ cs)
    (bytes : List UInt8) : cs <:+: decodeLossy bytes ↔ encode cs <:+: bytes := by
  constructor
  · rintro ⟨before, behind, e⟩
    rw [decodeLossy, eq_comm, List.append_assoc, List.map_eq_append_iff] at e
    obtain ⟨front, rest, hscan, -, hrest⟩ := e
    obtain ⟨found, back, rfl, hfound, -⟩ := List.map_eq_append_iff.mp hrest
    rw [eq_map_some_of_read hfound hcs] at hscan
    have hparts := parts_scan bytes
    rw [hscan] at hparts
    exact hparts.infix_encode
  · rintro ⟨before, behind, rfl⟩
    rw [decodeLossy_surrounded before hne]
    exact ⟨_, _, rfl⟩

end Conformance.Utf8

namespace Conformance

/-! ## Captured output -/

namespace Host

/-- The bytes that a pipe of a machine has taken up. -/
def captured (m : Machine) (pipe : Nat) : List UInt8 :=
  match m.pipes.lookup pipe with
  | some p => p.content.toList
  | none => []

theorem textOf_eq (m : Machine) (pipe : Nat) :
    textOf m pipe = String.ofList (Utf8.decodeLossy (captured m pipe)) := by
  rw [textOf, captured]
  rcases m.pipes.lookup pipe with _ | p
  · rfl
  · rfl

theorem receive_eq (child : Child) (pipe : OutputPipe) (nanos : Nat) (h : Host) :
    receive child pipe nanos h =
      let m := h.machine.runFor nanos (isClosed (h.pipeOf child pipe))
      (if isClosed (h.pipeOf child pipe) m then .text (textOf m (h.pipeOf child pipe))
        else .nothing, h.setMachine m) := rfl

/-- The text that comes out of a pipe is what all of its bytes are read as. -/
theorem text_of_receive {child : Child} {pipe : OutputPipe} {nanos : Nat} {h h' : Host}
    {text : String} (hreceive : receive child pipe nanos h = (.text text, h')) :
    text = String.ofList (Utf8.decodeLossy (captured h'.machine (h.pipeOf child pipe))) := by
  rw [receive_eq, Prod.mk.injEq] at hreceive
  obtain ⟨htext, rfl⟩ := hreceive
  split at htext
  · rw [← textOf_eq]
    exact (Received.text.inj htext).symm
  · cases htext

end Host

namespace Finished

open Utf8

/-- **Markers in raw output.** Let the marker not be empty, and free of replacement characters. What
some bytes are read as contains the marker exactly if its encoding occurs among the bytes, and
exactly then a run with this output counts as not executed, whatever its end and its error output
are; so it is with the bytes that a machine captures. Behind this is that a text which is not empty
is read as itself whatever bytes surround it, where reading replaces each maximal invalid part by
one replacement character. -/
theorem judge_raw_output {marker : String} (hne : marker ≠ "")
    (hmarker : replacement ∉ marker.toList) :
    (∀ bytes, (marker.toList <:+: decodeLossy bytes ↔ encode marker.toList <:+: bytes) ∧
      ∀ exit stderr,
        judge ⟨exit, String.ofList (decodeLossy bytes), stderr⟩ marker
            = (.fail, notExecutedDetail) ↔
          encode marker.toList <:+: bytes) ∧
    (∀ (h h' : Host) child nanos exit stdout stderr,
      Host.platform.receive child .stdout nanos h = (.text stdout, h') →
      (judge ⟨exit, stdout, stderr⟩ marker = (.fail, notExecutedDetail) ↔
        encode marker.toList <:+: Host.captured h'.machine (h.pipeOf child .stdout))) ∧
    (∀ before cs behind, cs ≠ [] →
      decodeLossy (before ++ encode cs ++ behind)
        = decodeLossy before ++ cs ++ decodeLossy behind) ∧
    ∀ bytes, ∃ items, (∀ items', Parts bytes items' ↔ items' = items) ∧
      decodeLossy bytes = items.map (·.getD replacement) := by
  have hcs : marker.toList ≠ [] := by
    rwa [Ne, String.toList_eq_nil_iff]
  have hjudge : ∀ bytes exit stderr,
      judge ⟨exit, String.ofList (decodeLossy bytes), stderr⟩ marker = (.fail, notExecutedDetail) ↔
        encode marker.toList <:+: bytes := by
    intro bytes exit stderr
    rw [judge_eq_notExecuted_iff, shows_iff, String.toList_ofList,
      infix_decodeLossy_iff hcs hmarker, and_iff_right hne]
  refine ⟨fun bytes ↦ ⟨infix_decodeLossy_iff hcs hmarker bytes, hjudge bytes⟩, ?_,
    fun before cs behind hcs ↦ decodeLossy_surrounded before hcs behind, ?_⟩
  · intro h h' child nanos exit stdout stderr hreceive
    rw [Host.text_of_receive hreceive]
    exact hjudge _ exit stderr
  · intro bytes
    exact ⟨scan bytes, fun items ↦ parts_iff, rfl⟩

/-- A marker behind a character that is cut short and in front of a byte that is no text. Where its
own last character is torn apart, it is not shown. -/
theorem judge_raw_output_torn :
    ∃ marker : String, marker ≠ "" ∧ replacement ∉ marker.toList ∧
      marker.toList <:+: decodeLossy ([0xF0, 0x9F] ++ encode marker.toList ++ [0xFF]) ∧
      (∀ exit stderr,
        judge ⟨exit, String.ofList (decodeLossy ([0xF0, 0x9F] ++ encode marker.toList ++ [0xFF])),
          stderr⟩ marker = (.fail, notExecutedDetail)) ∧
      ∀ exit stderr,
        judge ⟨exit, String.ofList (decodeLossy [0x6E, 0xC3, 0xFF, 0xA9]), stderr⟩ marker
          ≠ (.fail, notExecutedDetail) := by
  have hne : "né" ≠ "" := by decide
  have hmarker : replacement ∉ "né".toList := by decide
  obtain ⟨hbytes, -⟩ := judge_raw_output hne hmarker
  obtain ⟨htext, hjudge⟩ := hbytes ([0xF0, 0x9F] ++ encode "né".toList ++ [0xFF])
  have hinfix : encode "né".toList <:+: [0xF0, 0x9F] ++ encode "né".toList ++ [0xFF] := ⟨_, _, rfl⟩
  have htorn : ¬ encode "né".toList <:+: [0x6E, 0xC3, 0xFF, 0xA9] := by
    rw [← Text.occursIn_iff]
    decide
  exact ⟨"né", hne, hmarker, htext.mpr hinfix, fun exit stderr ↦ (hjudge exit stderr).mpr hinfix,
    fun exit stderr ↦ mt ((hbytes _).2 exit stderr).mp htorn⟩

end Finished

end Conformance
