namespace OntologyGuard.Text

def splitOnce? (separator : Char) (text : String) : Option (String × String) :=
  let before := text.toList.takeWhile (· ≠ separator)
  match text.toList.dropWhile (· ≠ separator) with
  | [] => none
  | _ :: after => some (String.ofList before, String.ofList after)

def startsWith (text head : String) : Bool := head.toList.isPrefixOf text.toList

def dropLength (text head : String) : String := String.ofList (text.toList.drop head.toList.length)

end OntologyGuard.Text
