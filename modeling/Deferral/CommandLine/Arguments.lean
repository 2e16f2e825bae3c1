/-
# Deferral.CommandLine.Arguments -- options and operands

The words of a command are options and operands in any order. An option with a value
takes it from the same word, after an equals sign, or from the next word. Options of
one letter may share a word. After two hyphens alone all words are operands.
-/

import Deferral.Text.Split

namespace Deferral

/-- An option of a command. -/
structure OptionForm where
  /-- The name, with its hyphens. -/
  name : String
  /-- A letter that stands for the option. -/
  letter : Option Char
  /-- The option has a value. -/
  takesValue : Bool

/-- The words of a command in order of their roles. -/
structure Arguments where
  /-- The options and their values. -/
  options : List (String × String)
  /-- All other words. -/
  operands : List String

namespace Arguments

/-- The arguments with options in front. -/
def withOptions (arguments : Arguments) (options : List (String × String)) : Arguments :=
  { arguments with options := options ++ arguments.options }

/-- The arguments with an operand in front. -/
def withOperand (arguments : Arguments) (operand : String) : Arguments :=
  { arguments with operands := operand :: arguments.operands }

/-- The value of an option: of several, the last one counts. -/
def value? (arguments : Arguments) (name : String) : Option String :=
  (arguments.options.reverse.find? (·.1 == name)).map Prod.snd

/-- An option is given. -/
def has (arguments : Arguments) (name : String) : Bool := (arguments.value? name).isSome

end Arguments

/-- A word is an option, or several. -/
def isOptionWord (word : String) : Bool :=
  match word.toList with
  | '-' :: _ :: _ => true
  | _ => false

/-- The name and the value that stand in one word. -/
def splitOption (word : String) : String × Option String :=
  let name := word.toList.takeWhile (· != '=')
  match word.toList.drop name.length with
  | [] => (word, none)
  | _ :: value => (String.ofList name, some (String.ofList value))

/-- The options of a word of letters after one hyphen. -/
def letterOptions? (forms : List OptionForm) (word : String) : Option (List (String × String)) :=
  match word.toList with
  | '-' :: '-' :: _ => none
  | '-' :: letters =>
    letters.mapM fun letter =>
      (forms.find? (·.letter == some letter)).map fun form => (form.name, "")
  | _ => none

/-- The options of a word, and the name of the one whose value is the next word. -/
def optionsOfWord? (forms : List OptionForm) (word : String) :
    Option (List (String × String) × Option String) :=
  let (name, value) := splitOption word
  match forms.find? (·.name == name), value with
  | none, _ => (letterOptions? forms word).map fun options => (options, none)
  | some form, some value => if form.takesValue then some ([(form.name, value)], none) else none
  | some form, none =>
    if form.takesValue then some ([], some form.name) else some ([(form.name, "")], none)

/-- The roles of words after an option that may await its value. -/
def readArgumentsAfter? (forms : List OptionForm) : Option String → List String → Option Arguments
  | none, [] => some ⟨[], []⟩
  | some _, [] => none
  | some name, value :: rest =>
    (readArgumentsAfter? forms none rest).map (·.withOptions [(name, value)])
  | none, word :: rest =>
    if word == "--" then some ⟨[], rest⟩
    else if isOptionWord word then do
      let (options, awaiting) ← optionsOfWord? forms word
      (readArgumentsAfter? forms awaiting rest).map (·.withOptions options)
    else (readArgumentsAfter? forms none rest).map (·.withOperand word)

/-- The roles of words, if they fit the options of a command. -/
def readArguments? (forms : List OptionForm) (words : List String) : Option Arguments :=
  readArgumentsAfter? forms none words

end Deferral
