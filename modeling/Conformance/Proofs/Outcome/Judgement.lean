import Conformance.Outcome
/-!
# How finished runs are judged

A run that has finished by itself passes exactly if its wait status is that of a good exit and its
output does not show the marker. The rules come in an order, and only what an earlier rule leaves
open is decided by a later one: the marker outranks the status, and the error output is merely
quoted.

Wait statuses are raw words here, whatever their bits. A stopped or continued child has a status
that tells of no end, and such a status is never a good one.
-/

namespace Conformance

/-! ## Wait statuses -/

namespace ExitState

/-- The text of the end that a raw wait status tells of, read off its bits. The low seven bits are
clear after an exit, whose code is the next byte. They are a signal if with one added, as a signed
byte and halved, they are positive. -/
def statusText (raw : UInt32) : String :=
  if raw &&& 0x7F = 0 then toString (raw >>> 8 &&& 0xFF).toNat
  else if (0 : Int8) < ((raw &&& 0x7F) + 1).toUInt8.toInt8 >>> 1 then
    "signal " ++ toString (raw &&& 0x7F).toNat
  else "-1"

theorem toNat_and_low (raw : UInt32) : (raw &&& 0x7F).toNat = raw.toNat % 128 :=
  (UInt32.toNat_and ..).trans (Nat.and_two_pow_sub_one_eq_mod raw.toNat 7)

theorem toNat_and_byte (raw : UInt32) : (raw >>> 8 &&& 0xFF).toNat = raw.toNat / 256 % 256 := by
  have hshift : (raw >>> 8).toNat = raw.toNat / 256 :=
    (UInt32.toNat_shiftRight ..).trans (Nat.shiftRight_eq_div_pow raw.toNat 8)
  rw [UInt32.toNat_and, hshift]
  exact Nat.and_two_pow_sub_one_eq_mod _ 8

theorem and_low_eq_zero_iff (raw : UInt32) : raw &&& 0x7F = 0 ↔ raw.toNat % 128 = 0 := by
  rw [← UInt32.toNat_inj, toNat_and_low, UInt32.toNat_zero]

/-- The mask of a good exit is made of the low seven bits and the next byte. -/
theorem and_mask_eq_zero_iff (raw : UInt32) :
    raw &&& 0xFF7F = 0 ↔ raw.toNat % 128 = 0 ∧ raw.toNat / 256 % 256 = 0 := by
  have hlow : (raw.toNat &&& 0xFF7F) % 2 ^ 8 = raw.toNat % 128 := by
    have h : raw.toNat % 2 ^ 8 &&& 0x7F = raw.toNat % 2 ^ 8 % 128 :=
      Nat.and_two_pow_sub_one_eq_mod _ 7
    rw [Nat.and_mod_two_pow]
    exact h.trans (Nat.mod_mod_of_dvd _ (by decide))
  have hhigh : (raw.toNat &&& 0xFF7F) / 2 ^ 8 = raw.toNat / 256 % 256 := by
    rw [Nat.and_div_two_pow]
    exact Nat.and_two_pow_sub_one_eq_mod _ 8
  rw [← UInt32.toNat_inj, UInt32.toNat_and, UInt32.toNat_zero, ← hlow, ← hhigh]
  change raw.toNat &&& 0xFF7F = 0 ↔ _
  omega

/-- Low bits that are neither clear nor all ones are a signal. -/
theorem isSignal_iff {n : Nat} (h₀ : n ≠ 0) (h : n < 128) :
    (0 : Int8) < (UInt32.ofNat n + 1).toUInt8.toInt8 >>> 1 ↔ n < 127 := by
  have hall : ∀ n < 128, n ≠ 0 →
      ((0 : Int8) < (UInt32.ofNat n + 1).toUInt8.toInt8 >>> 1 ↔ n < 127) := by
    decide +kernel
  exact hall n h h₀

theorem text_ofRaw (raw : UInt32) : (ofRaw raw).text = statusText raw := by
  have hlow : raw &&& 0x7F = UInt32.ofNat (raw.toNat % 128) := by
    rw [← toNat_and_low, UInt32.ofNat_toNat]
  rw [ofRaw, statusText, toNat_and_byte, toNat_and_low]
  by_cases h₀ : raw.toNat % 128 = 0
  · simp only [if_pos h₀, if_pos ((and_low_eq_zero_iff raw).mpr h₀)]
    rfl
  · simp only [if_neg h₀, if_neg (mt (and_low_eq_zero_iff raw).mp h₀)]
    by_cases h : raw.toNat % 128 < 127
    · rw [if_pos h, hlow, if_pos ((isSignal_iff h₀ (by omega)).mpr h)]
      rfl
    · rw [if_neg h, hlow, if_neg (mt (isSignal_iff h₀ (by omega)).mp h)]
      rfl

/-- A wait status is a good one exactly if the masked bits are clear. -/
theorem success_ofRaw_iff (raw : UInt32) : (ofRaw raw).success = true ↔ raw &&& 0xFF7F = 0 := by
  rw [success_iff, ofRaw, and_mask_eq_zero_iff]
  by_cases h₀ : raw.toNat % 128 = 0
  · simp only [if_pos h₀, code.injEq]
    omega
  · simp only [h₀, false_and, iff_false]
    by_cases h : raw.toNat % 128 < 127
    · rw [if_pos h]
      rintro ⟨⟩
    · rw [if_neg h]
      rintro ⟨⟩

end ExitState

/-! ## Judging -/

namespace Finished

variable {run : Finished} {marker : String}

theorem shows_iff : run.shows marker = true ↔
    marker ≠ "" ∧ marker.toList <:+: run.stdout.toList := by
  simp [shows, Text.contains_iff]

theorem judge_of_shows (h : run.shows marker = true) :
    run.judge marker = (.fail, notExecutedDetail) := by
  rw [judge, if_pos h]

theorem judge_of_success (hshows : run.shows marker = false) (h : run.exit.success = true) :
    run.judge marker = (.pass, "") := by
  rw [judge, hshows, if_neg Bool.false_ne_true, if_pos h]

theorem judge_of_failure (hshows : run.shows marker = false) (h : run.exit.success = false) :
    run.judge marker
      = (.fail, "Exit code: " ++ run.exit.text ++ ", stderr: " ++ run.excerpt) := by
  rw [judge, hshows, if_neg Bool.false_ne_true, h, if_neg Bool.false_ne_true]

/-- The three ways in which a run is judged. -/
theorem judge_cases (run : Finished) (marker : String) :
    (run.shows marker = true ∧ run.judge marker = (.fail, notExecutedDetail)) ∨
    (run.shows marker = false ∧ run.exit.success = true ∧ run.judge marker = (.pass, "")) ∨
    (run.shows marker = false ∧ run.exit.success = false ∧ run.judge marker
      = (.fail, "Exit code: " ++ run.exit.text ++ ", stderr: " ++ run.excerpt)) := by
  rcases hshows : run.shows marker with _ | _
  · rcases hexit : run.exit.success with _ | _
    · exact .inr (.inr ⟨rfl, rfl, judge_of_failure hshows hexit⟩)
    · exact .inr (.inl ⟨rfl, rfl, judge_of_success hshows hexit⟩)
  · exact .inl ⟨rfl, judge_of_shows hshows⟩

theorem exitDetail_ne_empty (text excerpt : String) :
    "Exit code: " ++ text ++ ", stderr: " ++ excerpt ≠ "" := by
  simp [String.append_eq_empty_iff]

/-- The details of the two kinds of failure differ in their first letter. -/
theorem exitDetail_ne_notExecutedDetail (text excerpt : String) :
    "Exit code: " ++ text ++ ", stderr: " ++ excerpt ≠ notExecutedDetail := by
  intro h
  have hhead := congrArg (fun s : String ↦ s.toList.head?) h
  simp [notExecutedDetail, String.toList_append] at hhead

/-- A run counts as not executed exactly if the marker is shown. -/
theorem judge_eq_notExecuted_iff :
    run.judge marker = (.fail, notExecutedDetail) ↔ run.shows marker = true := by
  rcases judge_cases run marker with ⟨hshows, h⟩ | ⟨hshows, -, h⟩ | ⟨hshows, -, h⟩
  · exact iff_of_true h hshows
  · rw [h, hshows]
    exact iff_of_false nofun nofun
  · rw [h, hshows]
    exact iff_of_false (fun e ↦ exitDetail_ne_notExecutedDetail _ _ (congrArg Prod.snd e)) nofun

theorem verdict_eq_pass_iff : (run.judge marker).1 = .pass ↔
    run.exit.success = true ∧ run.shows marker = false := by
  rcases judge_cases run marker with ⟨hshows, h⟩ | ⟨hshows, hexit, h⟩ | ⟨hshows, hexit, h⟩
  · simp [h, hshows]
  · simp [h, hshows, hexit]
  · simp [h, hexit]

theorem verdict_eq_fail_iff : (run.judge marker).1 = .fail ↔ (run.judge marker).1 ≠ .pass := by
  rcases judge_cases run marker with ⟨-, h⟩ | ⟨-, -, h⟩ | ⟨-, -, h⟩
  · simp [h]
  · simp [h]
  · simp [h]

theorem detail_eq_empty_iff : (run.judge marker).2 = "" ↔ (run.judge marker).1 = .pass := by
  rcases judge_cases run marker with ⟨-, h⟩ | ⟨-, -, h⟩ | ⟨-, -, h⟩
  · simp [h, notExecutedDetail]
  · simp [h]
  · rw [h]
    exact iff_of_false (exitDetail_ne_empty _ _) nofun

/-- The error output has no say in the verdict. -/
theorem verdict_congr {run' : Finished} {marker' : String} (hexit : run'.exit = run.exit)
    (hshows : run'.shows marker' = run.shows marker) :
    (run'.judge marker').1 = (run.judge marker).1 := by
  rw [judge, judge, hexit, hshows]
  split
  · rfl
  split
  · rfl
  · rfl

/-- Only the status, the showing of the marker and the excerpt are looked at. -/
theorem judge_congr {run' : Finished} {marker' : String} (hexit : run'.exit = run.exit)
    (hshows : run'.shows marker' = run.shows marker) (hexcerpt : run'.excerpt = run.excerpt) :
    run'.judge marker' = run.judge marker := by
  rw [judge, judge, hexit, hshows, hexcerpt]

/-- **How finished runs are judged.** Whatever the bits of a wait status, the run passes exactly if
the masked ones are clear and the marker is empty or no part of the output; otherwise it fails. The
detail is empty for a pass alone. A marker that is shown decides at once; without it, the detail of
a failure gives the end of the process and the first two hundred characters of the error output,
which has no say in the verdict. Beyond the status, the showing of the marker and these characters
nothing is looked at. -/
theorem judge_ofRaw (raw : UInt32) (stdout stderr marker : String) :
    ((judge ⟨.ofRaw raw, stdout, stderr⟩ marker).1 = .pass ↔
      raw &&& 0xFF7F = 0 ∧ (marker = "" ∨ ¬ marker.toList <:+: stdout.toList)) ∧
    ((judge ⟨.ofRaw raw, stdout, stderr⟩ marker).1 = .fail ↔
      (judge ⟨.ofRaw raw, stdout, stderr⟩ marker).1 ≠ .pass) ∧
    ((judge ⟨.ofRaw raw, stdout, stderr⟩ marker).2 = "" ↔
      (judge ⟨.ofRaw raw, stdout, stderr⟩ marker).1 = .pass) ∧
    (marker ≠ "" → marker.toList <:+: stdout.toList →
      judge ⟨.ofRaw raw, stdout, stderr⟩ marker = (.fail, notExecutedDetail)) ∧
    (marker = "" ∨ ¬ marker.toList <:+: stdout.toList → raw &&& 0xFF7F ≠ 0 →
      judge ⟨.ofRaw raw, stdout, stderr⟩ marker
        = (.fail, "Exit code: " ++ ExitState.statusText raw ++ ", stderr: " ++
            String.ofList (stderr.toList.take (min 200 stderr.length)))) ∧
    (∀ stderr', (judge ⟨.ofRaw raw, stdout, stderr'⟩ marker).1
      = (judge ⟨.ofRaw raw, stdout, stderr⟩ marker).1) ∧
    ∀ stdout' stderr' marker',
      (marker' ≠ "" ∧ marker'.toList <:+: stdout'.toList ↔
        marker ≠ "" ∧ marker.toList <:+: stdout.toList) →
      stderr'.toList.take 200 = stderr.toList.take 200 →
      judge ⟨.ofRaw raw, stdout', stderr'⟩ marker' = judge ⟨.ofRaw raw, stdout, stderr⟩ marker := by
  have hshown : (shows ⟨.ofRaw raw, stdout, stderr⟩ marker = false) ↔
      marker = "" ∨ ¬ marker.toList <:+: stdout.toList := by
    rw [← Bool.not_eq_true, shows_iff, Classical.not_and_iff_not_or_not, Classical.not_not]
  have hpass : (judge ⟨.ofRaw raw, stdout, stderr⟩ marker).1 = .pass ↔
      raw &&& 0xFF7F = 0 ∧ (marker = "" ∨ ¬ marker.toList <:+: stdout.toList) := by
    rw [verdict_eq_pass_iff, ExitState.success_ofRaw_iff, hshown]
  refine ⟨hpass, verdict_eq_fail_iff, detail_eq_empty_iff, ?_, ?_, ?_, ?_⟩
  · intro hne hinfix
    exact judge_of_shows (shows_iff.mpr ⟨hne, hinfix⟩)
  · intro hnot hmask
    have hexit : (ExitState.ofRaw raw).success = false := by
      rw [← Bool.not_eq_true, ExitState.success_ofRaw_iff]
      exact hmask
    have hexcerpt : excerpt ⟨.ofRaw raw, stdout, stderr⟩
        = String.ofList (stderr.toList.take (min 200 stderr.length)) := by
      rw [excerpt, excerptLength, ← String.length_toList, ← List.take_take, List.take_length]
    rw [judge_of_failure (hshown.mpr hnot) hexit, hexcerpt, ExitState.text_ofRaw]
  · intro stderr'
    exact verdict_congr rfl rfl
  · intro stdout' stderr' marker' hmarker hstderr
    refine judge_congr rfl ?_ ?_
    · rw [Bool.eq_iff_iff, shows_iff, shows_iff]
      exact hmarker
    · exact congrArg String.ofList hstderr

end Finished

end Conformance
