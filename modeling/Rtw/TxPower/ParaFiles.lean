import Rtw.TxPower.LimitSafe
import Rtw.TxPower.PgSafe

/-!
# Parameter files of any content

Both parsers read the content of a file from a buffer of `MAX_PARA_FILE_BUF_LEN` bytes, which is zero behind it.
`paraFile_inside_iff`: which files keep them inside of this buffer, of their own buffers and of the tables.
-/

namespace Rtw
open Para

/-- A file that leaves a byte of the buffer. -/
structure ParaFile where
  content : List UInt8
  small : content.length < 25600

/-- `para_file_buf` -/
def ParaFile.buffer (f : ParaFile) : Ptr := f.content ++ List.replicate (25600 - f.content.length) 0

theorem ParaFile.buffer_eq (f : ParaFile) : ∃ n, f.buffer = f.content ++ 0 :: List.replicate n 0 := by
  obtain ⟨n, hn⟩ : ∃ n, 25600 - f.content.length = n + 1 := Nat.exists_eq_succ_of_ne_zero (Nat.sub_ne_zero_of_lt f.small)
  exact ⟨n, by rw [ParaFile.buffer, hn, List.replicate_succ]⟩

theorem ParaFile.ended_buffer (f : ParaFile) : Ended f.buffer := by
  obtain ⟨n, hn⟩ := f.buffer_eq
  rw [hn, ← List.replicate_succ]
  refine Ended.append ?_
  clear hn
  induction n with
  | zero => exact Or.inl rfl
  | succ n ih => exact ih.cons

/-- The text can be decrypted, if it has to be, and each of its lines that the loop comes to is there and fits. -/
def TextFits {σ : Type} (line : σ → Ptr → Option (Next σ)) (fits : σ → Ptr → Prop) (st : σ) (flag : UInt8) (buffer : Ptr) : Prop :=
  (flag = 1 → Decrypts 0 0 buffer) ∧
    ∀ text, paraText flag buffer = some text → ∀ st' p, Comes line st text st' p → LineIn fits st' p

theorem text_ne_none {σ : Type} {line : σ → Ptr → Option (Next σ)} {fits : σ → Ptr → Prop} {st : σ} {flag : UInt8}
    {buffer : Ptr} (hbuffer : Ended buffer) (hline : ∀ st l, Ended l → (line st l ≠ none ↔ fits st l)) :
    (paraText flag buffer).bind (forLines line st) ≠ none ↔ TextFits line fits st flag buffer := by
  unfold TextFits
  rw [← paraText_ne_none]
  cases htext : paraText flag buffer with
  | none => exact iff_of_false (fun h => h rfl) fun h => h.1 rfl
  | some text =>
    rw [and_iff_right (Option.some_ne_none _), Option.bind_some,
      forLines_ne_none_iff hline (Or.inr (ended_paraText hbuffer htext))]
    simp only [Option.some.injEq, forall_eq']

theorem paraFile_inside_iff (f : ParaFile) (regDecryptCustomFile : UInt8) (st : LimitState) (a : PgAdapter) (pg : PgState) :
    (phyParsePowerLimitTableFile regDecryptCustomFile st f.buffer ≠ none ↔
      TextFits limitLine LimitLineFits { st with loadingStage := .label, colNum := 0 } regDecryptCustomFile f.buffer) ∧
    (phyParseBBPgParaFile a pg f.buffer ≠ none ↔
      TextFits (pgLine a) PgLineFits { pg with firstLine := true, txNum := 0, band := .on2_4G, rfPath := 0 }
        a.regDecryptCustomFile f.buffer) :=
  ⟨text_ne_none f.ended_buffer fun _ _ => limitLine_ne_none, text_ne_none f.ended_buffer fun _ _ => pgLine_ne_none⟩

/-- The label `## 0123456789A,`, whose name has eleven bytes. -/
def longLabel : List UInt8 := [0x23, 0x23, 0x20, 0x30, 0x31, 0x32, 0x33, 0x34, 0x35, 0x36, 0x37, 0x38, 0x39, 0x41, 0x2c]

theorem limitLine_longLabel {st : LimitState} (hst : st.loadingStage = .label) {rest : Ptr} (h : Ended (longLabel ++ rest)) :
    limitLine st (longLabel ++ rest) = none := by
  by_contra hne
  have hfits := (limitLine_ne_none h).mp hne (by simp [longLabel])
  rw [hst] at hfits
  have hcomma := (hfits (by simp [longLabel]) _ rfl).1
  simp [longLabel, hashText, isBlank] at hcomma

theorem phyParse_longLabel {f : ParaFile} (hf : f.content = longLabel) {st : LimitState} :
    phyParsePowerLimitTableFile 0 st f.buffer = none := by
  obtain ⟨n, hn⟩ := f.buffer_eq
  have hended := f.ended_buffer
  rw [hn, hf] at hended
  show forLines limitLine _ f.buffer = none
  rw [hn, hf, forLines_eq, splitLine_append (show Plain longLabel by decide) (Or.inr rfl)]
  show (limitLine _ (longLabel ++ 0 :: List.replicate n 0)).bind _ = none
  rw [limitLine_longLabel rfl hended]
  rfl

theorem not_paraFile_inside : ¬∀ (f : ParaFile) (regDecryptCustomFile : UInt8) (st : LimitState) (a : PgAdapter) (pg : PgState),
    phyParsePowerLimitTableFile regDecryptCustomFile st f.buffer ≠ none ∧ phyParseBBPgParaFile a pg f.buffer ≠ none := by
  intro h
  exact (h ⟨longLabel, by decide⟩ 0
    ⟨.label, zeroName, zeroName, zeroName, zeroName, zeroName, fun _ => zeroName, 0, ⟨fun _ => 0, fun _ => 0⟩⟩
    ⟨⟨.rtl8812, 0, 0⟩, 0, true⟩
    ⟨true, 0, .exact, 0, .on2_4G, 0, ⟨fun _ => 0, fun _ => 0⟩, fun _ _ => 0, 0⟩).1 (phyParse_longLabel rfl)

end Rtw
