import FleetWorkflow.Python.Text

/-!
# Case folding

`str.casefold`: the full case folding of the character database, which leaves every character that is in none of its runs
as it is. It knows nothing of Turkish: a dotted capital is folded to two characters, and a dotless letter to itself.
-/

namespace FleetWorkflow.Python

/-- Characters at equal steps that are folded to texts at the same steps: the first character of the text moves with
them, and the others stay. -/
structure CaseRun where
  first : ℕ
  count : ℕ
  step : ℕ
  target : ℕ
  more : List ℕ

/-- The runs whose characters are folded to one character: first, count, step, target. -/
def simpleRuns : List (ℕ × ℕ × ℕ × ℕ) :=
  [(0x41, 26, 1, 0x61), (0xB5, 1, 1, 0x3BC), (0xC0, 23, 1, 0xE0), (0xD8, 7, 1, 0xF8), (0x100, 24, 2, 0x101),
   (0x132, 3, 2, 0x133), (0x139, 8, 2, 0x13A), (0x14A, 23, 2, 0x14B), (0x178, 1, 1, 0xFF), (0x179, 3, 2, 0x17A),
   (0x17F, 1, 1, 0x73), (0x181, 1, 1, 0x253), (0x182, 2, 2, 0x183), (0x186, 1, 1, 0x254), (0x187, 1, 1, 0x188),
   (0x189, 2, 1, 0x256), (0x18B, 1, 1, 0x18C), (0x18E, 1, 1, 0x1DD), (0x18F, 1, 1, 0x259), (0x190, 1, 1, 0x25B),
   (0x191, 1, 1, 0x192), (0x193, 1, 1, 0x260), (0x194, 1, 1, 0x263), (0x196, 1, 1, 0x269), (0x197, 1, 1, 0x268),
   (0x198, 1, 1, 0x199), (0x19C, 1, 1, 0x26F), (0x19D, 1, 1, 0x272), (0x19F, 1, 1, 0x275), (0x1A0, 3, 2, 0x1A1),
   (0x1A6, 1, 1, 0x280), (0x1A7, 1, 1, 0x1A8), (0x1A9, 1, 1, 0x283), (0x1AC, 1, 1, 0x1AD), (0x1AE, 1, 1, 0x288),
   (0x1AF, 1, 1, 0x1B0), (0x1B1, 2, 1, 0x28A), (0x1B3, 2, 2, 0x1B4), (0x1B7, 1, 1, 0x292), (0x1B8, 1, 1, 0x1B9),
   (0x1BC, 1, 1, 0x1BD), (0x1C4, 1, 1, 0x1C6), (0x1C5, 1, 1, 0x1C6), (0x1C7, 1, 1, 0x1C9), (0x1C8, 1, 1, 0x1C9),
   (0x1CA, 1, 1, 0x1CC), (0x1CB, 9, 2, 0x1CC), (0x1DE, 9, 2, 0x1DF), (0x1F1, 1, 1, 0x1F3), (0x1F2, 2, 2, 0x1F3),
   (0x1F6, 1, 1, 0x195), (0x1F7, 1, 1, 0x1BF), (0x1F8, 20, 2, 0x1F9), (0x220, 1, 1, 0x19E), (0x222, 9, 2, 0x223),
   (0x23A, 1, 1, 0x2C65), (0x23B, 1, 1, 0x23C), (0x23D, 1, 1, 0x19A), (0x23E, 1, 1, 0x2C66), (0x241, 1, 1, 0x242),
   (0x243, 1, 1, 0x180), (0x244, 1, 1, 0x289), (0x245, 1, 1, 0x28C), (0x246, 5, 2, 0x247), (0x345, 1, 1, 0x3B9),
   (0x370, 2, 2, 0x371), (0x376, 1, 1, 0x377), (0x37F, 1, 1, 0x3F3), (0x386, 1, 1, 0x3AC), (0x388, 3, 1, 0x3AD),
   (0x38C, 1, 1, 0x3CC), (0x38E, 2, 1, 0x3CD), (0x391, 17, 1, 0x3B1), (0x3A3, 9, 1, 0x3C3), (0x3C2, 1, 1, 0x3C3),
   (0x3CF, 1, 1, 0x3D7), (0x3D0, 1, 1, 0x3B2), (0x3D1, 1, 1, 0x3B8), (0x3D5, 1, 1, 0x3C6), (0x3D6, 1, 1, 0x3C0),
   (0x3D8, 12, 2, 0x3D9), (0x3F0, 1, 1, 0x3BA), (0x3F1, 1, 1, 0x3C1), (0x3F4, 1, 1, 0x3B8), (0x3F5, 1, 1, 0x3B5),
   (0x3F7, 1, 1, 0x3F8), (0x3F9, 1, 1, 0x3F2), (0x3FA, 1, 1, 0x3FB), (0x3FD, 3, 1, 0x37B), (0x400, 16, 1, 0x450),
   (0x410, 32, 1, 0x430), (0x460, 17, 2, 0x461), (0x48A, 27, 2, 0x48B), (0x4C0, 1, 1, 0x4CF), (0x4C1, 7, 2, 0x4C2),
   (0x4D0, 48, 2, 0x4D1), (0x531, 38, 1, 0x561), (0x10A0, 38, 1, 0x2D00), (0x10C7, 1, 1, 0x2D27),
   (0x10CD, 1, 1, 0x2D2D), (0x13F8, 6, 1, 0x13F0), (0x1C80, 1, 1, 0x432), (0x1C81, 1, 1, 0x434),
   (0x1C82, 1, 1, 0x43E), (0x1C83, 2, 1, 0x441), (0x1C85, 1, 1, 0x442), (0x1C86, 1, 1, 0x44A), (0x1C87, 1, 1, 0x463),
   (0x1C88, 1, 1, 0xA64B), (0x1C90, 43, 1, 0x10D0), (0x1CBD, 3, 1, 0x10FD), (0x1E00, 75, 2, 0x1E01),
   (0x1E9B, 1, 1, 0x1E61), (0x1EA0, 48, 2, 0x1EA1), (0x1F08, 8, 1, 0x1F00), (0x1F18, 6, 1, 0x1F10),
   (0x1F28, 8, 1, 0x1F20), (0x1F38, 8, 1, 0x1F30), (0x1F48, 6, 1, 0x1F40), (0x1F59, 4, 2, 0x1F51),
   (0x1F68, 8, 1, 0x1F60), (0x1FB8, 2, 1, 0x1FB0), (0x1FBA, 2, 1, 0x1F70), (0x1FBE, 1, 1, 0x3B9),
   (0x1FC8, 4, 1, 0x1F72), (0x1FD8, 2, 1, 0x1FD0), (0x1FDA, 2, 1, 0x1F76), (0x1FE8, 2, 1, 0x1FE0),
   (0x1FEA, 2, 1, 0x1F7A), (0x1FEC, 1, 1, 0x1FE5), (0x1FF8, 2, 1, 0x1F78), (0x1FFA, 2, 1, 0x1F7C),
   (0x2126, 1, 1, 0x3C9), (0x212A, 1, 1, 0x6B), (0x212B, 1, 1, 0xE5), (0x2132, 1, 1, 0x214E), (0x2160, 16, 1, 0x2170),
   (0x2183, 1, 1, 0x2184), (0x24B6, 26, 1, 0x24D0), (0x2C00, 48, 1, 0x2C30), (0x2C60, 1, 1, 0x2C61),
   (0x2C62, 1, 1, 0x26B), (0x2C63, 1, 1, 0x1D7D), (0x2C64, 1, 1, 0x27D), (0x2C67, 3, 2, 0x2C68),
   (0x2C6D, 1, 1, 0x251), (0x2C6E, 1, 1, 0x271), (0x2C6F, 1, 1, 0x250), (0x2C70, 1, 1, 0x252), (0x2C72, 1, 1, 0x2C73),
   (0x2C75, 1, 1, 0x2C76), (0x2C7E, 2, 1, 0x23F), (0x2C80, 50, 2, 0x2C81), (0x2CEB, 2, 2, 0x2CEC),
   (0x2CF2, 1, 1, 0x2CF3), (0xA640, 23, 2, 0xA641), (0xA680, 14, 2, 0xA681), (0xA722, 7, 2, 0xA723),
   (0xA732, 31, 2, 0xA733), (0xA779, 2, 2, 0xA77A), (0xA77D, 1, 1, 0x1D79), (0xA77E, 5, 2, 0xA77F),
   (0xA78B, 1, 1, 0xA78C), (0xA78D, 1, 1, 0x265), (0xA790, 2, 2, 0xA791), (0xA796, 10, 2, 0xA797),
   (0xA7AA, 1, 1, 0x266), (0xA7AB, 1, 1, 0x25C), (0xA7AC, 1, 1, 0x261), (0xA7AD, 1, 1, 0x26C), (0xA7AE, 1, 1, 0x26A),
   (0xA7B0, 1, 1, 0x29E), (0xA7B1, 1, 1, 0x287), (0xA7B2, 1, 1, 0x29D), (0xA7B3, 1, 1, 0xAB53),
   (0xA7B4, 8, 2, 0xA7B5), (0xA7C4, 1, 1, 0xA794), (0xA7C5, 1, 1, 0x282), (0xA7C6, 1, 1, 0x1D8E),
   (0xA7C7, 2, 2, 0xA7C8), (0xA7D0, 1, 1, 0xA7D1), (0xA7D6, 2, 2, 0xA7D7), (0xA7F5, 1, 1, 0xA7F6),
   (0xAB70, 80, 1, 0x13A0), (0xFF21, 26, 1, 0xFF41), (0x10400, 40, 1, 0x10428), (0x104B0, 36, 1, 0x104D8),
   (0x10570, 11, 1, 0x10597), (0x1057C, 15, 1, 0x105A3), (0x1058C, 7, 1, 0x105B3), (0x10594, 2, 1, 0x105BB),
   (0x10C80, 51, 1, 0x10CC0), (0x118A0, 32, 1, 0x118C0), (0x16E40, 32, 1, 0x16E60), (0x1E900, 34, 1, 0x1E922)]

/-- The runs of neighbours whose characters are folded to more than one: first, count, text of the first. -/
def fullRuns : List (ℕ × ℕ × ℕ × List ℕ) :=
  [(0xDF, 1, 0x73, [0x73]), (0x130, 1, 0x69, [0x307]), (0x149, 1, 0x2BC, [0x6E]), (0x1F0, 1, 0x6A, [0x30C]),
   (0x390, 1, 0x3B9, [0x308, 0x301]), (0x3B0, 1, 0x3C5, [0x308, 0x301]), (0x587, 1, 0x565, [0x582]),
   (0x1E96, 1, 0x68, [0x331]), (0x1E97, 1, 0x74, [0x308]), (0x1E98, 1, 0x77, [0x30A]), (0x1E99, 1, 0x79, [0x30A]),
   (0x1E9A, 1, 0x61, [0x2BE]), (0x1E9E, 1, 0x73, [0x73]), (0x1F50, 1, 0x3C5, [0x313]),
   (0x1F52, 1, 0x3C5, [0x313, 0x300]), (0x1F54, 1, 0x3C5, [0x313, 0x301]), (0x1F56, 1, 0x3C5, [0x313, 0x342]),
   (0x1F80, 8, 0x1F00, [0x3B9]), (0x1F88, 8, 0x1F00, [0x3B9]), (0x1F90, 8, 0x1F20, [0x3B9]),
   (0x1F98, 8, 0x1F20, [0x3B9]), (0x1FA0, 8, 0x1F60, [0x3B9]), (0x1FA8, 8, 0x1F60, [0x3B9]),
   (0x1FB2, 1, 0x1F70, [0x3B9]), (0x1FB3, 1, 0x3B1, [0x3B9]), (0x1FB4, 1, 0x3AC, [0x3B9]),
   (0x1FB6, 1, 0x3B1, [0x342]), (0x1FB7, 1, 0x3B1, [0x342, 0x3B9]), (0x1FBC, 1, 0x3B1, [0x3B9]),
   (0x1FC2, 1, 0x1F74, [0x3B9]), (0x1FC3, 1, 0x3B7, [0x3B9]), (0x1FC4, 1, 0x3AE, [0x3B9]),
   (0x1FC6, 1, 0x3B7, [0x342]), (0x1FC7, 1, 0x3B7, [0x342, 0x3B9]), (0x1FCC, 1, 0x3B7, [0x3B9]),
   (0x1FD2, 1, 0x3B9, [0x308, 0x300]), (0x1FD3, 1, 0x3B9, [0x308, 0x301]), (0x1FD6, 1, 0x3B9, [0x342]),
   (0x1FD7, 1, 0x3B9, [0x308, 0x342]), (0x1FE2, 1, 0x3C5, [0x308, 0x300]), (0x1FE3, 1, 0x3C5, [0x308, 0x301]),
   (0x1FE4, 1, 0x3C1, [0x313]), (0x1FE6, 1, 0x3C5, [0x342]), (0x1FE7, 1, 0x3C5, [0x308, 0x342]),
   (0x1FF2, 1, 0x1F7C, [0x3B9]), (0x1FF3, 1, 0x3C9, [0x3B9]), (0x1FF4, 1, 0x3CE, [0x3B9]),
   (0x1FF6, 1, 0x3C9, [0x342]), (0x1FF7, 1, 0x3C9, [0x342, 0x3B9]), (0x1FFC, 1, 0x3C9, [0x3B9]),
   (0xFB00, 1, 0x66, [0x66]), (0xFB01, 1, 0x66, [0x69]), (0xFB02, 1, 0x66, [0x6C]), (0xFB03, 1, 0x66, [0x66, 0x69]),
   (0xFB04, 1, 0x66, [0x66, 0x6C]), (0xFB05, 1, 0x73, [0x74]), (0xFB06, 1, 0x73, [0x74]), (0xFB13, 1, 0x574, [0x576]),
   (0xFB14, 1, 0x574, [0x565]), (0xFB15, 1, 0x574, [0x56B]), (0xFB16, 1, 0x57E, [0x576]), (0xFB17, 1, 0x574, [0x56D])]

/-- The runs of the database. -/
def caseRuns : List CaseRun :=
  (simpleRuns.map fun (first, count, step, target) => ⟨first, count, step, target, []⟩) ++
    fullRuns.map fun (first, count, target, more) => ⟨first, count, 1, target, more⟩

namespace CaseRun

variable (run : CaseRun)

/-- A code point is in the run. -/
def holds (n : ℕ) : Bool := run.first ≤ n && (n - run.first) % run.step = 0 && (n - run.first) / run.step < run.count

/-- The text that a code point of the run is folded to. -/
def text (n : ℕ) : List Char := ((run.target + (n - run.first)) :: run.more).map Char.ofNat

/-- Something holds of every code point of the run. -/
def all (p : ℕ → Bool) : Bool := (List.range run.count).all fun i => p (run.first + i * run.step)

/-- What is checked along a run holds of its code points. -/
theorem of_all {run : CaseRun} {p : ℕ → Bool} (h : run.all p = true) {n : ℕ} (hn : run.holds n = true) :
    p n = true := by
  simp only [holds, Bool.and_eq_true, decide_eq_true_eq] at hn
  obtain ⟨⟨hfirst, hstep⟩, hcount⟩ := hn
  have hplace := List.all_eq_true.mp h _ (List.mem_range.mpr hcount)
  rwa [Nat.div_mul_cancel (Nat.dvd_of_mod_eq_zero hstep), Nat.add_sub_cancel' hfirst] at hplace

end CaseRun

/-- The folded form of a character. -/
def casefoldChar (c : Char) : List Char :=
  match caseRuns.find? fun run => run.holds c.toNat with
  | some run => run.text c.toNat
  | none => [c]

/-- Character by character. -/
def casefoldChars (cs : List Char) : List Char := cs.flatMap casefoldChar

/-- `s.casefold()`. -/
def casefold (s : String) : String := String.ofList (casefoldChars s.toList)

example : casefold "Straße STANDART ΣΑΣ" = "strasse standart σασ" := by decide +kernel

/-- What is checked along all runs holds of the characters that are in one. -/
theorem CaseRun.of_find? {p : CaseRun → ℕ → Bool} (h : (caseRuns.all fun run => run.all (p run)) = true) {n : ℕ}
    {run : CaseRun} (hrun : caseRuns.find? (fun run => run.holds n) = some run) : p run n = true := by
  have hholds := List.find?_some hrun
  exact CaseRun.of_all (List.all_eq_true.mp h run (List.mem_of_find?_eq_some hrun)) hholds

/-- What is checked along the runs, of a code point and its text, holds of every character and its folded form, when it
holds of the characters that stay. -/
theorem casefoldChar_of_all {p : ℕ → List Char → Bool}
    (hruns : (caseRuns.all fun run => run.all fun n => p n (run.text n)) = true) {c : Char}
    (hself : p c.toNat [c] = true) : p c.toNat (casefoldChar c) = true := by
  rw [casefoldChar]
  split
  · rename_i run hrun
    exact CaseRun.of_find? (p := fun run n => p n (run.text n)) hruns hrun
  · exact hself

/-- Space is not folded. -/
theorem casefoldChar_space {c : Char} (h : isSpace c = true) : casefoldChar c = [c] := by
  rw [casefoldChar]
  split
  · rename_i run hrun
    have hnone : (caseRuns.all fun run => run.all fun n => !isSpace (Char.ofNat n)) = true := by decide +kernel
    have hnot := CaseRun.of_find? hnone hrun
    rw [Char.ofNat_toNat, h] at hnot
    cases hnot
  · rfl

/-- What is no space is folded to a text without space. -/
theorem casefoldChar_word {c : Char} (h : isSpace c = false) :
    casefoldChar c ≠ [] ∧ ∀ d ∈ casefoldChar c, isSpace d = false := by
  have hall := @casefoldChar_of_all (fun _ text => !text.isEmpty && text.all fun d => !isSpace d) (by decide +kernel) c
    (by simp [h])
  simpa using hall

end FleetWorkflow.Python
