import OntologyGuard.Text.Letter
import OntologyGuard.Text.Number

namespace OntologyGuard.Xsd

def isNameStart (c : Char) : Bool := Text.isLetter c || c = '_'

def isNamePart (c : Char) : Bool := isNameStart c || Text.isNumber c || c = '.' || c = '-'

def isNcName : List Char → Bool
  | c :: rest => isNameStart c && rest.all isNamePart
  | [] => false

def isName : List Char → Bool
  | c :: rest => (isNameStart c || c = ':') && rest.all fun c ↦ isNamePart c || c = ':'
  | [] => false

def isNmToken (cs : List Char) : Bool :=
  !cs.isEmpty && cs.all fun c ↦ isNamePart c || c = ':'

def isQName (cs : List Char) : Bool :=
  match cs.dropWhile (· ≠ ':') with
  | [] => isNcName cs
  | _ :: name => isNcName (cs.takeWhile (· ≠ ':')) && isNcName name

def subtags : List Char → List (List Char)
  | [] => [[]]
  | c :: rest =>
    if c = '-' then [] :: subtags rest
    else
      match subtags rest with
      | [] => [[c]]
      | tag :: tags => (c :: tag) :: tags

def isSubtag (allowed : Char → Bool) (tag : List Char) : Bool :=
  !tag.isEmpty && tag.length ≤ 8 && tag.all allowed

/-- One to eight letters, then any number of parts of one to eight letters or digits. -/
def isLanguage (cs : List Char) : Bool :=
  match subtags cs with
  | [] => false
  | tag :: tags => isSubtag Char.isAlpha tag && tags.all (isSubtag Char.isAlphanum)

end OntologyGuard.Xsd
