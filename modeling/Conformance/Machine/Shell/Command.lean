/-!
# Commands of the shell

What a shell script is made of, once it is read. Texts are raw. A word is a list of parts, because its
quoted and unquoted parts are treated differently when it is expanded.
-/

namespace Conformance.Machine.Shell

/-- How a redirection connects a descriptor. -/
inductive RedirectKind where
  | input
  | output
  | append
  | inputOutput
  /-- A copy of another descriptor, or none if the word is a dash. -/
  | copy
  /-- The expanded text itself. -/
  | here
  deriving DecidableEq, Repr

/-- What an expansion of a parameter does besides giving its value. -/
inductive Modifier where
  | none
  /-- The length of the value. -/
  | length
  /-- A word for an unset parameter; with `isEmptyToo` also for an empty one. -/
  | default (isEmptyToo : Bool)
  /-- The same, and the parameter is set to the word. -/
  | assign (isEmptyToo : Bool)
  /-- An error for an unset parameter. -/
  | require (isEmptyToo : Bool)
  /-- A word for a parameter that is set. -/
  | alternative (isEmptyToo : Bool)
  /-- The value without the shortest or longest beginning that matches a pattern. -/
  | trimStart (isLongest : Bool)
  /-- The value without the shortest or longest end that matches a pattern. -/
  | trimEnd (isLongest : Bool)
  deriving DecidableEq, Repr

mutual

/-- A part of a word. -/
inductive Part where
  | literal (isQuoted : Bool) (text : String)
  | parameter (isQuoted : Bool) (name : String) (modifier : Modifier) (word : List Part)
  /-- The output of a command. -/
  | output (isQuoted : Bool) (body : Command)
  | arithmetic (isQuoted : Bool) (expression : List Part)

inductive Redirect where
  | mk (fd : Nat) (kind : RedirectKind) (word : List Part)

inductive Command where
  /-- Assignments and words, read on a certain line. -/
  | simple (line : Nat) (assignments : List (String × List Part)) (words : List (List Part))
    (redirects : List Redirect)
  /-- A command with redirections of its own. -/
  | redirected (body : Command) (redirects : List Redirect)
  | subshell (body : Command)
  | pipeline (stages : List Command)
  | not (body : Command)
  | andThen (first second : Command)
  | orElse (first second : Command)
  | sequence (first second : Command)
  | background (body : Command)
  | conditional (condition yes no : Command)
  /-- A loop that goes on while its condition holds, or until it does. -/
  | loop (isUntil : Bool) (condition body : Command)
  /-- A loop over words, or over the arguments if there are none. -/
  | each (name : String) (words : Option (List (List Part))) (body : Command)
  | choice (word : List Part) (clauses : List (List (List Part) × Command))
  | definition (name : String) (body : Command)
  /-- Nothing at all. -/
  | empty

end

abbrev Word := List Part

end Conformance.Machine.Shell
