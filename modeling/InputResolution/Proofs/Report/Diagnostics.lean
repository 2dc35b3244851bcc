import InputResolution.Report.Diagnostics
import InputResolution.Proofs.Text.Lines

namespace InputResolution

/-! What is printed for a failure, against the wording of the failure.  The
message is cut into lines and each line is written with a line feed, so whatever
the cut does not keep of a supplied text is not printed. -/

theorem hasReturn_quoted (text : Text) :
    (quoted text).HasReturn ↔ text.HasReturn := by
  rw [quoted, ← List.singleton_append, List.append_assoc,
    Text.hasReturn_append_left _ (by decide),
    Text.hasReturn_append_right _ (by decide)]

namespace Failure

/-- The texts of a message that come from outside. -/
def supplied : Failure → List Text
  | .invalidRemapping token => [token]
  | .notFound path => [path]
  | .notAValidFile path => [path]
  | .readFailed path reason => [path, reason]
  | .stdinReadFailed reason => [reason]
  | _ => []

/-- The supplied text with which a message ends. -/
def reason? : Failure → Option Text
  | .readFailed _ reason => some reason
  | .stdinReadFailed reason => some reason
  | _ => none

/-! String literals are opened by `String.toList_ofList`: evaluating them
decodes their bytes. -/

theorem getLast?_message_of_reason?_eq_none {failure : Failure}
    (h : failure.reason? = none) :
    failure.message.getLast? = some '.' := by
  cases failure with
  | readFailed path reason => simp [reason?] at h
  | stdinReadFailed reason => simp [reason?] at h
  | invalidRemapping token => exact List.getLast?_concat
  | notFound path | notAValidFile path =>
      unfold message
      rw [List.getLast?_append, String.toList_ofList]
      rfl
  | _ =>
      unfold message
      repeat rw [String.toList_ofList]
      rfl

theorem getLast?_message_of_mem_reason? {failure : Failure} {reason : Text}
    (h : reason ∈ failure.reason?) :
    failure.message.getLast? = some (reason.getLast?.getD ' ') := by
  have getLast?_append_reason : ∀ fixed : Text,
      (fixed ++ ' ' :: reason).getLast? = some (reason.getLast?.getD ' ') := by
    intro fixed
    cases hlast : reason.getLast? <;> simp [List.getLast?_cons, hlast]
  cases failure with
  | readFailed path other =>
      obtain rfl : other = reason := by simpa [reason?] using h
      unfold message
      rw [String.toList_ofList]
      simpa using
        getLast?_append_reason (quoted path ++ " could not be read:".toList)
  | stdinReadFailed other =>
      obtain rfl : other = reason := by simpa [reason?] using h
      unfold message
      rw [String.toList_ofList]
      simpa using getLast?_append_reason "Failed to read standard input:".toList
  | _ => simp [reason?] at h

theorem getLast?_message (failure : Failure) :
    failure.message.getLast? = some '\n' ↔
      ∃ reason ∈ failure.reason?, reason.getLast? = some '\n' := by
  cases hreason : failure.reason? with
  | none => simp [getLast?_message_of_reason?_eq_none hreason]
  | some reason =>
      rw [getLast?_message_of_mem_reason? hreason]
      cases hlast : reason.getLast? <;> simp [hlast]

theorem message_ne_nil (failure : Failure) : failure.message ≠ [] := by
  rintro hnil
  cases hreason : failure.reason? with
  | none => simpa [hnil] using getLast?_message_of_reason?_eq_none hreason
  | some reason => simpa [hnil] using getLast?_message_of_mem_reason? hreason

theorem hasReturn_message (failure : Failure) :
    failure.message.HasReturn ↔ ∃ text ∈ failure.supplied, text.HasReturn := by
  cases failure with
  | invalidRemapping token =>
      unfold message
      rw [Text.hasReturn_append_right _ (by decide), String.toList_ofList,
        Text.hasReturn_append_left _ (by decide), hasReturn_quoted]
      simp [supplied]
  | notFound path | notAValidFile path =>
      unfold message
      rw [String.toList_ofList, Text.hasReturn_append_right _ (by decide),
        hasReturn_quoted]
      simp [supplied]
  | readFailed path reason =>
      have hlast : (" could not be read: ".toList).getLast? = some ' ' := by
        rw [String.toList_ofList]
        rfl
      unfold message
      rw [Text.hasReturn_append, List.getLast?_append, hlast,
        String.toList_ofList, Text.hasReturn_append_right _ (by decide),
        hasReturn_quoted]
      simp [supplied]
  | stdinReadFailed reason =>
      unfold message
      rw [String.toList_ofList, Text.hasReturn_append_left _ (by decide)]
      simp [supplied]
  | _ =>
      refine iff_of_false (Text.not_hasReturn_of_return_notMem ?_)
        (by simp [supplied])
      unfold message
      repeat rw [String.toList_ofList]
      decide

end Failure

namespace Diagnostics

theorem text_fail (diagnostics : Diagnostics) (failure : Failure) :
    (diagnostics.fail failure).text =
      diagnostics.text ++ Text.unlines failure.message.lines := by
  simp [fail, text]

theorem text_fail_eq_iff (diagnostics : Diagnostics) (failure : Failure) :
    (diagnostics.fail failure).text =
      diagnostics.text ++ failure.message ++ ['\n'] ↔
      (∀ text ∈ failure.supplied, ¬ text.HasReturn) ∧
        ∀ reason ∈ failure.reason?, reason.getLast? ≠ some '\n' := by
  rw [text_fail, List.append_assoc, List.append_cancel_left_eq,
    Text.unlines_lines_eq_iff failure.message_ne_nil, failure.hasReturn_message,
    ne_eq, failure.getLast?_message]
  simp

theorem text_fail_ne_of_return :
    (empty.fail (.notFound ['a', '\r', '\n', 'b'])).text ≠
      empty.text ++ (Failure.notFound ['a', '\r', '\n', 'b']).message ++
        ['\n'] := by
  decide

end Diagnostics

end InputResolution
