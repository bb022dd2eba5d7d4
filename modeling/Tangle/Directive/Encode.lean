import Tangle.Directive.Decode
import Tangle.Yaml.Write

/-!
Contract: the body of a directive comment for a given value.

Owns: which of the written forms a value gets, and the order of the fields.

Does **not** own: the comment around the body (`Tangle.Document.Print`).
-/

set_option autoImplicit false

namespace Tangle.Directive

open Tangle.Yaml

def ReplaceRule.tree : ReplaceRule → Write.Tree
  | pair find insert => .list [.text find, .text insert]
  | remove find => .text find

def AdditionalFile.tree (file : AdditionalFile) : Write.Tree :=
  .record ["suffix", "content"] [.text file.suffix, .text file.content]

/-- A field that is left out when it has no value. -/
def optionalField (name : String) (value : Option String) : List (String × Write.Tree) :=
  match value with
  | some text => [(name, .text text)]
  | none => []

def listField (name : String) (items : List Write.Tree) : List (String × Write.Tree) :=
  if items.isEmpty then [] else [(name, .list items)]

def fieldsTree (fields : List (String × Write.Tree)) : Write.Tree :=
  .record (fields.map Prod.fst) (fields.map Prod.snd)

def Settings.tree (settings : Settings) : Write.Tree :=
  fieldsTree
    (optionalField "file" settings.file
      ++ optionalField "prefix" settings.header
      ++ optionalField "postfix" settings.footer
      ++ (if settings.skip then [("skip", .boolean true)] else [])
      ++ listField "replace" (settings.replace.map ReplaceRule.tree)
      ++ listField "additionalFiles" (settings.additionalFiles.map AdditionalFile.tree))

def Config.tree (config : Config) : Write.Tree :=
  fieldsTree
    (optionalField "outDir" config.outDir
      ++ optionalField "prefix" config.header
      ++ optionalField "postfix" config.footer)

/-- A YAML body starts on the line after the keyword. -/
def yamlBody (tree : Write.Tree) : String :=
  String.ofList ('\n' :: Write.document tree)

/-- Nothing for the default, the bare name when a file is all there is, and YAML
otherwise. -/
def Settings.encode (settings : Settings) : String :=
  if settings = {} then ""
  else
    match settings.file with
    | some file =>
        if settings = .forFile file && isBareToken file then " " ++ file
        else yamlBody settings.tree
    | none => yamlBody settings.tree

def Config.encode (config : Config) : String :=
  if config = {} then "" else yamlBody config.tree

end Tangle.Directive
