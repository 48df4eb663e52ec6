import FrontendAudit.Severity

/-!
# Accessibility checks

The checks by name, with the severity of what they report and the success criterion of the
guidelines that it falls under.
-/

namespace FrontendAudit.Accessibility

/-- An accessibility check. -/
inductive Check where
  | missingAlt
  | emptyAlt
  | genericAlt
  | skippedHeading
  | multipleH1
  | emptyHeading
  | missingFormLabel
  | colorContrast
  | keyboardNavigation
  | emptyAria
  | duplicateAria
  | tabOrderFocus
  | focusManagement
  | missingLandmark
  | missingSkipLink
  | missingLang
  | missingTitle
  deriving DecidableEq, Repr

namespace Check

/-- The name in findings. -/
def name : Check → String
  | missingAlt => "missing_alt"
  | emptyAlt => "empty_alt"
  | genericAlt => "generic_alt"
  | skippedHeading => "skipped_heading"
  | multipleH1 => "multiple_h1"
  | emptyHeading => "empty_heading"
  | missingFormLabel => "missing_form_label"
  | colorContrast => "color_contrast"
  | keyboardNavigation => "keyboard_navigation"
  | emptyAria => "empty_aria"
  | duplicateAria => "duplicate_aria"
  | tabOrderFocus => "tab_order_focus"
  | focusManagement => "focus_management"
  | missingLandmark => "missing_landmark"
  | missingSkipLink => "missing_skip_link"
  | missingLang => "missing_lang"
  | missingTitle => "missing_title"

/-- How much a finding of the check matters. -/
def severity : Check → Severity
  | missingAlt | missingFormLabel => .high
  | emptyHeading => .low
  | _ => .medium

/-- The success criterion that the check is about. -/
def criterion : Check → String
  | missingAlt | emptyAlt | genericAlt => "1.1.1"
  | skippedHeading | multipleH1 | emptyHeading | missingLandmark => "1.3.1"
  | missingFormLabel => "3.3.2"
  | colorContrast => "1.4.3"
  | keyboardNavigation => "2.1.1"
  | emptyAria | duplicateAria => "4.1.2"
  | tabOrderFocus | focusManagement => "2.4.3"
  | missingSkipLink => "2.4.1"
  | missingLang => "3.1.1"
  | missingTitle => "2.4.2"

end Check

end FrontendAudit.Accessibility
