import TemplateScanner.Console
import TemplateScanner.Proofs.CommandArguments
import TemplateScanner.Proofs.Defects
import TemplateScanner.Proofs.FirstLine
import TemplateScanner.Proofs.Notices

namespace TemplateScanner

/-- What was read at a path is no text, and this is said of it. -/
inductive Unreadable (path : String) : Except ReadError ByteArray → String → Prop where
  | missing : Unreadable path (.error .notFound) ("cannot find file '" ++ path ++ "'")
  | denied : Unreadable path (.error .denied) ("permission denied reading '" ++ path ++ "'")
  | invalid {bytes : ByteArray} : ¬bytes.IsValidUTF8 →
    Unreadable path (.ok bytes) ("'" ++ path ++ "' contains invalid UTF-8 data")
  | notText : Unreadable path (.error .notText) ("'" ++ path ++ "' contains invalid UTF-8 data")
  | other {reason : String} :
    Unreadable path (.error (.other reason)) ("error reading '" ++ path ++ "': " ++ reason)

theorem decodeText_eq_ok_iff {content : Except ReadError ByteArray} {text : String} :
    decodeText content = .ok text ↔ content = .ok text.toUTF8 := by
  constructor
  · intro decoded
    obtain ⟨bytes, content, decoded⟩ := bind_eq_ok_iff.mp decoded
    unfold String.fromUTF8? at decoded
    split at decoded
    next _ found =>
      cases Except.ok.inj decoded
      split at found
      next valid =>
        cases Option.some.inj found
        exact content
      next => cases found
    next => cases decoded
  · rintro rfl
    have valid : text.toUTF8.IsValidUTF8 := text.isValidUTF8
    rw [decodeText, ok_bind, String.fromUTF8?, dif_pos valid]
    rfl

theorem Unreadable.decodeText {path said : String} {content : Except ReadError ByteArray}
    (unreadable : Unreadable path content said) :
    ∃ error, TemplateScanner.decodeText content = .error error ∧ error.message path = said := by
  cases unreadable with
  | missing => exact ⟨.notFound, rfl, rfl⟩
  | denied => exact ⟨.denied, rfl, rfl⟩
  | invalid invalid =>
    refine ⟨.notText, ?_, rfl⟩
    rw [TemplateScanner.decodeText, ok_bind, String.fromUTF8?, dif_neg invalid]
  | notText => exact ⟨.notText, rfl, rfl⟩
  | @other reason => exact ⟨.other reason, rfl, rfl⟩

namespace Logging

variable (logging : Logging)

/-- A text whose offsets all fit can be scanned. -/
theorem exists_scanText {text : String} (fits : text.utf8ByteSize < offsetLimit) (path : String)
    (options : ScanOptions) : ∃ outcome, logging.scanText path text options = .ok outcome := by
  obtain ⟨cursor, opened⟩ := Cursor.exists_ofText fits
  obtain ⟨source, made, started⟩ := bind_eq_ok_iff.mp opened
  obtain ⟨_, _, warned⟩ := Source.warnings_eq made path
  obtain ⟨written, reported⟩ := exists_report isHidden made started options
  rw [scanText, made, ok_bind, warned, ok_bind, report_eq, reported]
  exact ⟨_, rfl⟩

theorem scanFile_of_text (path text : String) (options : ScanOptions) :
    logging.scanFile path options (.ok text.toUTF8) = logging.scanText path text options := by
  rw [scanFile, decodeText_eq_ok_iff.mpr rfl]

end Logging

end TemplateScanner
