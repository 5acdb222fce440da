import KlangFront.Command.LexFile
import Mathlib.Data.List.Nodup

/-!
# What the diagnostic of an error tells

The message of a fault does not always tell it from others, and neither does its remedy.
`Fault.messageClass` picks one fault of those that share a message, and
`Fault.remedyClass` one of those that share a remedy. The two together leave a single fault
(`Fault.ofClasses_classes`), so a diagnostic with both texts and the place is the
diagnostic of one lexical error only: `LexicalError.toDiagnostic_faithful`.
-/

namespace KlangFront

namespace Fault

/-- The fault that stands for those with the same message. -/
def messageClass : Fault → Fault
  | loneAmpersand => strayCharacter '&'
  | loneBar => strayCharacter '|'
  | badEscape _ c => badEscape .string c
  | fault => fault

/-- The fault that stands for those with the same remedy. -/
def remedyClass : Fault → Fault
  | strayCharacter _ => strayCharacter ' '
  | badEscape quoted _ => badEscape quoted ' '
  | emptyCharacter => lineBreak .character
  | fault => fault

/-- The fault between its two classes. -/
def ofClasses : (messageClass remedyClass : Fault) → Fault
  | badEscape _ c, badEscape quoted _ => badEscape quoted c
  | told, strayCharacter _ | told, lineBreak .character => told
  | _, cured => cured

theorem ofClasses_classes (fault : Fault) :
    ofClasses fault.messageClass fault.remedyClass = fault := by
  cases fault with
  | lineBreak quoted | unterminated quoted => cases quoted <;> rfl
  | _ => rfl

/-- A fault with another character in place of the one that it is about, if there is one. -/
def withCharacter (c : Char) : Fault → Fault
  | strayCharacter _ => strayCharacter c
  | badEscape quoted _ => badEscape quoted c
  | fault => fault

-- ---------------------------------------------------------------------------
-- Remedies
-- ---------------------------------------------------------------------------

/-- One fault for each remedy. -/
def remedyClasses : List Fault := [
  strayCharacter ' ', danglingSigil, loneAmpersand, loneBar, openComment, lineBreak .string,
  lineBreak .character, badEscape .string ' ', badEscape .character ' ', unterminated .string,
  unterminated .character, crowdedCharacter, missingFraction, missingGroup, wordAfterNumber]

theorem remedyClass_mem (fault : Fault) : fault.remedyClass ∈ remedyClasses := by
  cases fault with
  | strayCharacter c =>
    change strayCharacter ' ' ∈ remedyClasses
    decide
  | badEscape quoted c =>
    change badEscape quoted ' ' ∈ remedyClasses
    cases quoted <;> decide
  | lineBreak quoted | unterminated quoted => cases quoted <;> decide
  | _ => decide

theorem remedy_remedyClass (fault : Fault) : fault.remedyClass.remedy = fault.remedy := by
  cases fault with
  | badEscape quoted c => cases quoted <;> rfl
  | _ => rfl

theorem remedy_eq_iff {fault other : Fault} :
    fault.remedy = other.remedy ↔ fault.remedyClass = other.remedyClass := by
  have hremedies : (remedyClasses.map remedy).Nodup := by decide +kernel
  constructor
  · intro h
    rw [← remedy_remedyClass, ← other.remedy_remedyClass] at h
    exact List.inj_on_of_nodup_map hremedies fault.remedyClass_mem other.remedyClass_mem h
  · intro h
    rw [← remedy_remedyClass, h, remedy_remedyClass]

-- ---------------------------------------------------------------------------
-- Messages
-- ---------------------------------------------------------------------------

/-- One fault for each message, apart from the character that the message names. -/
def messageStems : List Fault := [
  strayCharacter ' ', danglingSigil, openComment, lineBreak .string, lineBreak .character,
  badEscape .string ' ', unterminated .string, unterminated .character, emptyCharacter,
  crowdedCharacter, missingFraction, missingGroup, wordAfterNumber]

/-- As much of a message as tells it from the others, and does not reach the character that
it may name. -/
def stem (message : String) : List Char := message.toList.take 19

/-- The character in front of the last one, which is the one that a message names. -/
def named (message : String) : Char := message.toList.dropLast.getLastD ' '

theorem messageClass_mem (fault : Fault) : fault.messageClass.withCharacter ' ' ∈ messageStems := by
  cases fault with
  | lineBreak quoted | unterminated quoted =>
    cases quoted <;> simp [messageClass, withCharacter, messageStems]
  | _ => simp [messageClass, withCharacter, messageStems]

theorem message_messageClass (fault : Fault) : fault.messageClass.message = fault.message := by
  cases fault with
  | loneAmpersand | loneBar => decide +kernel
  | _ => rfl

theorem named_append (front : String) (c : Char) : named (front ++ c.toString ++ "'") = c := by
  have hfront : (front ++ c.toString ++ "'").toList = (front.toList ++ [c]) ++ ['\''] := by
    simp
  rw [named, hfront, List.dropLast_concat, List.getLastD_concat]

theorem stem_append (front rest : String) (h : 19 ≤ front.length) :
    stem (front ++ rest) = stem front := by
  rw [stem, String.toList_append, List.take_append_of_le_length h, stem]

theorem message_strayCharacter (c : Char) :
    (strayCharacter c).message = "unexpected character '" ++ c.toString ++ "'" := rfl

theorem message_badEscape (quoted : Quoted) (c : Char) :
    (badEscape quoted c).message = "invalid escape sequence '\\" ++ c.toString ++ "'" := rfl

theorem stem_withCharacter (fault : Fault) (c : Char) :
    stem (fault.withCharacter c).message = stem fault.message := by
  cases fault with
  | strayCharacter found =>
    simp only [withCharacter, message_strayCharacter, String.append_assoc]
    rw [stem_append _ _ (by decide), stem_append _ _ (by decide)]
  | badEscape quoted found =>
    simp only [withCharacter, message_badEscape, String.append_assoc]
    rw [stem_append _ _ (by decide), stem_append _ _ (by decide)]
  | _ => rfl

theorem withCharacter_named (fault : Fault) :
    fault.withCharacter (named fault.message) = fault := by
  cases fault with
  | strayCharacter c => rw [message_strayCharacter, named_append, withCharacter]
  | badEscape quoted c => rw [message_badEscape, named_append, withCharacter]
  | _ => rfl

theorem withCharacter_withCharacter (fault : Fault) (first second : Char) :
    (fault.withCharacter first).withCharacter second = fault.withCharacter second := by
  cases fault <;> rfl

theorem message_eq_iff {fault other : Fault} :
    fault.message = other.message ↔ fault.messageClass = other.messageClass := by
  have hstems : (messageStems.map fun fault => stem fault.message).Nodup := by decide +kernel
  constructor
  · intro h
    rw [← message_messageClass, ← other.message_messageClass] at h
    -- the stem of the message tells the kind of the fault, and the character is read from its end
    have hkind : fault.messageClass.withCharacter ' ' = other.messageClass.withCharacter ' ' :=
      List.inj_on_of_nodup_map hstems fault.messageClass_mem other.messageClass_mem
        (by rw [stem_withCharacter, stem_withCharacter, h])
    rw [← fault.messageClass.withCharacter_named, ← other.messageClass.withCharacter_named, h,
      ← withCharacter_withCharacter _ ' ', hkind, withCharacter_withCharacter]
  · intro h
    rw [← message_messageClass, h, message_messageClass]

theorem eq_of_texts {fault other : Fault} (hmessage : fault.message = other.message)
    (hremedy : fault.remedy = other.remedy) : fault = other := by
  rw [← fault.ofClasses_classes, ← other.ofClasses_classes, message_eq_iff.mp hmessage,
    remedy_eq_iff.mp hremedy]

end Fault

namespace LexicalError

theorem toDiagnostic_eq_iff {error other : LexicalError} :
    error.toDiagnostic = other.toDiagnostic ↔ error = other := by
  constructor
  · intro h
    obtain ⟨-, hmessage, hprimary, -, hnotes⟩ := Diagnostic.mk.inj h
    have hremedy : error.fault.remedy = other.fault.remedy :=
      congrArg Note.message (List.singleton_inj.mp hnotes)
    obtain ⟨fault, span⟩ := error
    obtain ⟨fault', span'⟩ := other
    cases Fault.eq_of_texts hmessage hremedy
    cases Option.some.inj hprimary
    rfl
  · rintro rfl
    rfl

/-- The making of the diagnostic of an error is never refused. The diagnostic is fatal, has
the place of the error and a single note without a place, and is what a file with this error
is refused with. It belongs to no other error, although faults share their messages and
their remedies with those of the same class. -/
theorem toDiagnostic_faithful {m : Type → Type} [Monad m] [LawfulMonad m]
    (error : LexicalError) :
    Diagnostic.build .lexicalError error.fault.message
      [.primary error.span, .noteMessage error.fault.remedy] = .ok error.toDiagnostic ∧
    error.toDiagnostic.severity = .lexicalError ∧ error.toDiagnostic.isFatal = true ∧
    error.toDiagnostic.primary = some error.span ∧ error.toDiagnostic.secondary = [] ∧
    (∃ note, error.toDiagnostic.notes = [note] ∧ note.span = none ∧
      note.message = error.fault.remedy) ∧
    (∀ (read : String → m (Except ReadError String)) path source,
      Path.extension? path = some ['k'] → read path = pure (.ok source) →
      tokenize (fileNamed path) source = .error error →
        lexFile read path = pure (.error (.reported error.toDiagnostic))) ∧
    (∀ other : LexicalError, error.toDiagnostic = other.toDiagnostic ↔ error = other) ∧
    ∀ other : Fault,
      (error.fault.message = other.message ↔ error.fault.messageClass = other.messageClass) ∧
      (error.fault.remedy = other.remedy ↔ error.fault.remedyClass = other.remedyClass) := by
  refine ⟨error.build_toDiagnostic, rfl, rfl, rfl, rfl, ⟨_, rfl, rfl, rfl⟩, ?_,
    fun _ => toDiagnostic_eq_iff, fun _ => ⟨Fault.message_eq_iff, Fault.remedy_eq_iff⟩⟩
  intro read path source hpath hread htokens
  simp only [lexFile, if_pos hpath, hread, pure_bind, htokens]

/-- A stray ampersand has the message of a lone one and the remedy of a stray tilde, and its
diagnostic is neither of theirs. -/
theorem toDiagnostic_faithful_ampersand :
    let place : Span := .point (some "a.k") (.clamp 1) (.clamp 3)
    let error : LexicalError := ⟨.strayCharacter '~', place⟩
    let stray : LexicalError := ⟨.strayCharacter '&', place⟩
    let lone : LexicalError := ⟨.loneAmpersand, place⟩
    lexFile (m := Id) (fun _ => .ok "a ~") "a.k" = .error (.reported error.toDiagnostic) ∧
      stray.fault.message = lone.fault.message ∧ stray.fault.remedy = error.fault.remedy ∧
      stray.toDiagnostic ≠ lone.toDiagnostic ∧ stray.toDiagnostic ≠ error.toDiagnostic := by
  intro place error stray lone
  obtain ⟨-, -, -, -, -, -, hfile, -, -⟩ := toDiagnostic_faithful (m := Id) error
  obtain ⟨-, -, -, -, -, -, -, hdiagnostic, hclasses⟩ := toDiagnostic_faithful (m := Id) stray
  have htokens : tokenize (fileNamed "a.k") "a ~" = .error error := by decide +kernel
  refine ⟨hfile _ "a.k" "a ~" (by decide) rfl htokens, (hclasses lone.fault).1.mpr rfl,
    (hclasses error.fault).2.mpr rfl, ?_, ?_⟩
  · rw [Ne, hdiagnostic]
    decide
  · rw [Ne, hdiagnostic]
    decide

end LexicalError

end KlangFront
