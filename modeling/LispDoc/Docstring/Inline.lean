import LispDoc.Text.LetterCase

/-!
# Inline nodes

A run of text becomes a sequence of nodes: plain text, emphasis, references to symbols, Info nodes and addresses, code
literals and meta-variables. A meta-variable is written in upper case and shown in lower case.
-/

namespace LispDoc

/-- What a reference points to. -/
inductive Role where
  /-- a node or anchor of an Info manual -/
  | info
  | command
  | function
  | option
  | var
  | face
  /-- a symbol introduced as such -/
  | quotedSymbol
  | url
  /-- any quoted symbol -/
  | symbol
  deriving DecidableEq, Repr

/-- How the text of a reference is set. -/
inductive InnerStyle where
  | plain
  | emphasis
  | literal
  deriving DecidableEq, Repr

def InnerStyle.name : InnerStyle → String
  | plain => "plain"
  | emphasis => "emphasis"
  | literal => "literal"

namespace Role

/-- All roles. -/
def all : List Role := [info, command, function, option, var, face, quotedSymbol, url, symbol]

/-- The name of a role in documents. -/
def key : Role → String
  | info => "info"
  | command => "command"
  | function => "function"
  | option => "option"
  | var => "variable"
  | face => "face"
  | quotedSymbol => "quoted-symbol"
  | url => "url"
  | symbol => "symbol"

/-- The role with a name. -/
def ofKey? (key : String) : Option Role := all.find? (·.key == key)

/-- The domain of the reference type: Lisp objects have one. -/
def domain? : Role → Option String
  | info => none
  | quotedSymbol => none
  | url => none
  | _ => some "el"

/-- The reference type without its domain. -/
def type : Role → String
  | info => "infonode"
  | command => "command"
  | function => "function"
  | option => "option"
  | var => "variable"
  | face => "face"
  | quotedSymbol => "symbol"
  | url => "url"
  | symbol => "symbol"

/-- The reference type with its domain in front. -/
def describe (role : Role) : String :=
  match role.domain? with
  | some domain => domain ++ ":" ++ role.type
  | none => role.type

def style : Role → InnerStyle
  | info => .emphasis
  | url => .plain
  | _ => .literal

end Role

structure Reference where
  role : Role
  target : String
  /-- text to show in place of the target -/
  text : Option String := none
  deriving DecidableEq, Repr

/-- The text that is shown. -/
def Reference.shown (r : Reference) : String := r.text.getD r.target

inductive Inline where
  | plain (text : String)
  | emphasis (text : String)
  | reference (reference : Reference)
  /-- code, with its meta-variables split out -/
  | literal (children : List Inline)
  | metaVariable (name : String)
  deriving Repr, Inhabited

namespace Inline

/-- The text of a plain node. -/
def plain? : Inline → Option String
  | plain text => some text
  | _ => none

def reference? : Inline → Option Reference
  | reference r => some r
  | _ => none

/-- How a meta-variable is shown. -/
def metaVariableText (name : String) : String := Text.toLower name

mutual
/-- The text that a reader sees. -/
def text : Inline → String
  | plain text => text
  | emphasis text => text
  | reference r => r.shown
  | literal children => textOf children
  | metaVariable name => metaVariableText name

/-- The text that a reader sees of several nodes. -/
def textOf : List Inline → String
  | [] => ""
  | node :: nodes => node.text ++ textOf nodes
end

end Inline

end LispDoc
