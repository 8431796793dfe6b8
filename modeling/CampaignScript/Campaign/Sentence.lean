import CampaignScript.Text.Phrase

/-! The sentences of a script, taken apart at their fixed words. What stands between the fixed
words is not looked into here. A sentence is the content of one line, so it has no white space
around it, and a text with a line feed in it is no sentence. -/
namespace CampaignScript

open Text

/-- The sentences that say what starts a campaign. -/
inductive TriggerSentence where
  /-- A sentence of the form "when a user registers". -/
  | event (type : Text)
  /-- A sentence of the form "every Monday at 9am". -/
  | recurring (days times : Text)
  /-- A sentence of the form "on 1 May at noon". -/
  | oneOff (date time : Text)
deriving DecidableEq, Repr

namespace TriggerSentence

def event? (text : Text) : Option TriggerSentence :=
  (afterPhrase? "when a user ".toList text).map event

/-- The first "at" divides the days from the times. -/
def recurring? (text : Text) : Option TriggerSentence := do
  let schedule ← afterPhrase? "every ".toList text
  let (days, times) ← splitAtPhrase? " at ".toList schedule
  some (recurring days times)

/-- The first "at" that leaves a date in front of it divides the date from the time. -/
def oneOff? (text : Text) : Option TriggerSentence :=
  match afterPhrase? "on ".toList text with
  | some (first :: moment) => do
    let (date, time) ← splitAtPhrase? " at ".toList moment
    some (oneOff (first :: date) time)
  | _ => none

def ofText? (text : Text) : Option TriggerSentence :=
  if '\n' ∈ text then none else event? text <|> recurring? text <|> oneOff? text

end TriggerSentence

/-- The sentences that say what a campaign does. -/
inductive StepSentence where
  /-- A sentence of the form "send the welcome email". -/
  | email (template : Text)
  /-- A sentence of the form "if subscribed". -/
  | condition (predicate : Text)
  /-- A sentence of the form "wait for 3 days". -/
  | wait (amount unit : Text)
deriving DecidableEq, Repr

namespace StepSentence

/-- The template is all that stands between the opening words and the closing words, also where the
closing words occur inside it. -/
def email? (text : Text) : Option StepSentence := do
  let rest ← afterPhrase? "send the ".toList text
  let template ←
    beforePhrase? " email".toList rest <|> beforePhrase? " email with custom fields".toList rest
  some (email template)

def condition? (text : Text) : Option StepSentence :=
  (afterPhrase? "if ".toList text).map condition

/-- The first space divides the amount from the unit. -/
def wait? (text : Text) : Option StepSentence := do
  let duration ← afterPhrase? "wait for ".toList text
  let (amount, unit) ← splitAtChar? ' ' duration
  some (wait amount unit)

def ofText? (text : Text) : Option StepSentence :=
  if '\n' ∈ text then none else email? text <|> condition? text <|> wait? text

end StepSentence

end CampaignScript
