import Tabula.Text.Keyword
import Tabula.Text.Blank

/-!
# Confirmation

Before an action that can lose data the user is asked, and only the letter `y`, small or capital,
with white space around it or not, lets it happen.
-/

namespace Tabula.Confirmation

def question (action : String) : String :=
  "Are you sure you want to perform \"" ++ action ++ "\"? [y/n]: "

/-- Whether an answer lets the action happen. -/
def isAffirmative (answer : String) : Bool :=
  Text.sameIgnoringCase (Text.trim answer.toList) ['y']

/-- Do something if the answer to the question about it lets it happen; nothing comes of it if
not. -/
def confirm {Fault α : Type} (action : String) (ask : String → Bool)
    (run : Unit → Except Fault α) : Except Fault (Option α) :=
  if ask (question action) then (run ()).map some else .ok none

end Tabula.Confirmation
