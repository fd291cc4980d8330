import ReplayLog.Text.Blank

/-! # Rejections

A statement is left out when it is blank, when a rule finds that the log cut it short, when it has
placeholders whose values are unknown, or when it is an administrative statement. The first reason
counts, and a blank statement has no other. -/
namespace ReplayLog

/-- A rule on statements. -/
inductive RejectionRule
  /-- Rejects a statement that ends in the text. -/
  | truncated (ending : Text)
  /-- Rejects a statement with the placeholder when no parameter values go with it. -/
  | unbound (placeholder : Char)
  /-- Rejects a statement that begins with the text. -/
  | administrative (opening : Text)

/-- Why a statement is left out. -/
inductive Rejection
  | blank
  | truncated
  | unbound
  | administrative (opening : Text)
  deriving DecidableEq, Repr

namespace Rejection

def message : Rejection → String
  | blank => "empty sql"
  | truncated => "truncated sql"
  | unbound => "sql with placeholders but no parameters"
  | administrative opening => s!"internal '{String.ofList opening}' statement"

end Rejection

namespace RejectionRule

def check (statement : Text) (parameter : Option Text) : RejectionRule → Option Rejection
  | truncated ending => if statement.endsWith ending then some .truncated else none
  | unbound placeholder =>
    if statement.contains placeholder && (parameter.getD []).isEmpty then some .unbound else none
  | administrative opening =>
    if opening.isPrefixOf statement then some (.administrative opening) else none

end RejectionRule

/-- The first reason to leave a statement out, if there is any. -/
def firstRejection (rules : List RejectionRule) (statement : Text) (parameter : Option Text) :
    Option Rejection :=
  if statement.isBlankText then some .blank
  else rules.findSome? (·.check statement parameter)

/-- The rule on statements that a log cut short: it ends them in the word more behind a space. -/
def RejectionRule.cutShort : RejectionRule := .truncated " more".toList

def RejectionRule.questionMarks : RejectionRule := .unbound '?'

end ReplayLog
