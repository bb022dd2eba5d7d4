import Tangle.Directive.Encode
import Tangle.Proofs.Yaml.Readers

/-!
Contract: the records of directives come back from the trees they are written as.

Owns: the fields of the trees, what the readers of directives take from them, and
`decodeText_settings` and `decodeText_config`.

Does **not** own: the text around a tree (`Tangle.Proofs.Directive.Reread`), or YAML
(`Tangle.Proofs.Yaml.Readers`).

A field is left out when it has its default, so the record that is read is built from the
default record by copying the fields that were written.
-/

set_option autoImplicit false

namespace Tangle.Directive

open Tangle.Yaml
open Write (Tree)

/-! ## Fields -/

def Settings.fields (settings : Settings) : List (String × Tree) :=
  optionalField "file" settings.file
    ++ optionalField "prefix" settings.header
    ++ optionalField "postfix" settings.footer
    ++ (if settings.skip then [("skip", .boolean true)] else [])
    ++ listField "replace" (settings.replace.map ReplaceRule.tree)
    ++ listField "additionalFiles" (settings.additionalFiles.map AdditionalFile.tree)

def Config.fields (config : Config) : List (String × Tree) :=
  optionalField "outDir" config.outDir
    ++ optionalField "prefix" config.header
    ++ optionalField "postfix" config.footer

theorem fieldsTree_zip (fields : List (String × Tree)) :
    (fields.map Prod.fst).zip (fields.map Prod.snd) = fields := by
  rw [List.zip_map']
  exact List.map_id _

/-- A part of the fields that is left out or is one field of the given name. -/
def AtMost (name : String) (part : List (String × Tree)) : Prop :=
  part = [] ∨ ∃ value, part = [(name, value)]

private theorem atMost_optional (name : String) (value : Option String) :
    AtMost name (optionalField name value) := by
  cases value with
  | none => exact Or.inl rfl
  | some text => exact Or.inr ⟨_, rfl⟩

private theorem atMost_list (name : String) (items : List Tree) : AtMost name (listField name items) := by
  rw [listField]
  split
  · exact Or.inl rfl
  · exact Or.inr ⟨_, rfl⟩

private theorem atMost_flag (name : String) (value : Tree) (flag : Bool) :
    AtMost name (if flag then [(name, value)] else []) := by
  cases flag with
  | true => exact Or.inr ⟨_, rfl⟩
  | false => exact Or.inl rfl

theorem AtMost.sublist {name : String} {part : List (String × Tree)} (atMost : AtMost name part) :
    (part.map Prod.fst).Sublist [name] := by
  rcases atMost with rfl | ⟨value, rfl⟩
  · exact List.nil_sublist _
  · exact List.Sublist.refl _

/-- A field that is left out is one that would copy its default. -/
theorem AtMost.foldl {σ : Type} {name : String} {part : List (String × Tree)}
    (atMost : AtMost name part) (copy : String → σ → σ) {record : σ}
    (skips : part = [] → copy name record = record) :
    part.foldl (fun record field => copy field.1 record) record = copy name record := by
  rcases atMost with rfl | ⟨value, rfl⟩
  · exact (skips rfl).symm
  · rfl

private theorem optionalField_eq_nil {name : String} {value : Option String}
    (isNil : optionalField name value = []) : value = none := by
  cases value with
  | none => rfl
  | some text => cases isNil

private theorem listField_eq_nil {name : String} {items : List Tree} (isNil : listField name items = []) :
    items = [] := by
  rw [listField] at isNil
  split at isNil
  · next empty => exact List.isEmpty_iff.mp empty
  · cases isNil

private theorem Settings.fields_sublist (settings : Settings) :
    (settings.fields.map Prod.fst).Sublist settingsFields := by
  simp only [Settings.fields, List.map_append]
  exact (((((atMost_optional _ _).sublist.append (atMost_optional _ _).sublist).append
    (atMost_optional _ _).sublist).append (atMost_flag _ _ _).sublist).append
    (atMost_list _ _).sublist).append (atMost_list _ _).sublist

private theorem Config.fields_sublist (config : Config) :
    (config.fields.map Prod.fst).Sublist configFields := by
  simp only [Config.fields, List.map_append]
  exact ((atMost_optional _ _).sublist.append (atMost_optional _ _).sublist).append
    (atMost_optional _ _).sublist

/-! ## Copies -/

def Settings.copy (source : Settings) (name : String) (record : Settings) : Settings :=
  if name == "file" then { record with file := source.file }
  else if name == "prefix" then { record with header := source.header }
  else if name == "postfix" then { record with footer := source.footer }
  else if name == "skip" then { record with skip := source.skip }
  else if name == "replace" then { record with replace := source.replace }
  else { record with additionalFiles := source.additionalFiles }

def Config.copy (source : Config) (name : String) (record : Config) : Config :=
  if name == "outDir" then { record with outDir := source.outDir }
  else if name == "prefix" then { record with header := source.header }
  else { record with footer := source.footer }

private theorem Config.foldl_copy (config : Config) :
    config.fields.foldl (fun record field => config.copy field.1 record) {} = config := by
  simp only [Config.fields, List.foldl_append]
  rw [(atMost_optional "outDir" config.outDir).foldl config.copy,
    (atMost_optional "prefix" config.header).foldl config.copy,
    (atMost_optional "postfix" config.footer).foldl config.copy]
  · rfl
  all_goals
    intro isNil
    simp [Config.copy, optionalField_eq_nil isNil]

private theorem Settings.foldl_copy (settings : Settings) :
    settings.fields.foldl (fun record field => settings.copy field.1 record) {} = settings := by
  simp only [Settings.fields, List.foldl_append]
  rw [(atMost_optional "file" settings.file).foldl settings.copy,
    (atMost_optional "prefix" settings.header).foldl settings.copy,
    (atMost_optional "postfix" settings.footer).foldl settings.copy,
    (atMost_flag "skip" (.boolean true) settings.skip).foldl settings.copy,
    (atMost_list "replace" (settings.replace.map ReplaceRule.tree)).foldl settings.copy,
    (atMost_list "additionalFiles" (settings.additionalFiles.map AdditionalFile.tree)).foldl
      settings.copy]
  · rfl
  · intro isNil
    simp [Settings.copy, List.map_eq_nil_iff.mp (listField_eq_nil isNil)]
  · intro isNil
    simp [Settings.copy, List.map_eq_nil_iff.mp (listField_eq_nil isNil)]
  · intro isNil
    have unset : settings.skip = false := by simpa using isNil
    simp [Settings.copy, unset]
  all_goals
    intro isNil
    simp [Settings.copy, optionalField_eq_nil isNil]

theorem Settings.fields_filled {settings : Settings} (other : settings ≠ {}) :
    settings.fields ≠ [] := by
  intro isNil
  have copied := settings.foldl_copy
  rw [isNil] at copied
  exact other copied.symm

theorem Config.fields_filled {config : Config} (other : config ≠ {}) : config.fields ≠ [] := by
  intro isNil
  have copied := config.foldl_copy
  rw [isNil] at copied
  exact other copied.symm

/-! ## Proper trees -/

theorem isName_of_known :
    ∀ name ∈ settingsFields ++ configFields ++ ["suffix", "content"],
      Scanner.IsName name.toList := by
  have parts : (settingsFields ++ configFields ++ ["suffix", "content"]).all (fun name =>
      !name.toList.isEmpty && name.toList.all Char.isAlphanum && name.toList.length ≤ 256) = true := by
    decide
  intro name isIn
  have part := List.all_eq_true.mp parts name isIn
  simp only [Bool.and_eq_true, Bool.not_eq_true', List.isEmpty_eq_false_iff, List.all_eq_true,
    decide_eq_true_eq] at part
  exact ⟨part.1.1, part.1.2, part.2⟩

private theorem proper_fieldsTree {fields : List (String × Tree)} (filled : fields ≠ [])
    (named : ∀ field ∈ fields, Scanner.IsName field.1.toList)
    (each : ∀ field ∈ fields, Proper field.2) : Proper (fieldsTree fields) := by
  refine .record ?_ ?_ ?_ <;> rw [fieldsTree_zip]
  · exact filled
  · exact named
  · exact each

theorem ReplaceRule.proper (rule : ReplaceRule) : Proper rule.tree := by
  cases rule with
  | pair find insert => exact .list (List.cons_ne_nil _ _) (by simp [Proper.text])
  | remove find => exact .text find

def AdditionalFile.fields (file : AdditionalFile) : List (String × Tree) :=
  [("suffix", .text file.suffix), ("content", .text file.content)]

theorem AdditionalFile.proper (file : AdditionalFile) : Proper file.tree := by
  refine @proper_fieldsTree file.fields (List.cons_ne_nil _ _) ?_ ?_
  · intro field isIn
    have known : field.1 ∈ ["suffix", "content"] := List.mem_map_of_mem isIn
    exact isName_of_known _ (List.mem_append_right _ known)
  · simp [AdditionalFile.fields, Proper.text]

private theorem mem_optionalField {name : String} {value : Option String} {field : String × Tree}
    (isIn : field ∈ optionalField name value) :
    ∃ text, value = some text ∧ field = (name, .text text) := by
  cases value with
  | none => cases isIn
  | some text => exact ⟨text, rfl, List.mem_singleton.mp isIn⟩

private theorem mem_listField {name : String} {items : List Tree} {field : String × Tree}
    (isIn : field ∈ listField name items) : items ≠ [] ∧ field = (name, .list items) := by
  rw [listField] at isIn
  split at isIn
  · cases isIn
  · next filled => exact ⟨by simpa using filled, List.mem_singleton.mp isIn⟩

/-- The fields of a record are those that are not left out. -/
theorem Settings.mem_fields {settings : Settings} {field : String × Tree}
    (isIn : field ∈ settings.fields) :
    (∃ text, settings.file = some text ∧ field = ("file", .text text))
      ∨ (∃ text, settings.header = some text ∧ field = ("prefix", .text text))
      ∨ (∃ text, settings.footer = some text ∧ field = ("postfix", .text text))
      ∨ (settings.skip = true ∧ field = ("skip", .boolean true))
      ∨ (settings.replace.map ReplaceRule.tree ≠ []
          ∧ field = ("replace", .list (settings.replace.map ReplaceRule.tree)))
      ∨ (settings.additionalFiles.map AdditionalFile.tree ≠ []
          ∧ field = ("additionalFiles", .list (settings.additionalFiles.map AdditionalFile.tree))) := by
  simp only [Settings.fields, List.mem_append] at isIn
  rcases isIn with ((((isIn | isIn) | isIn) | isIn) | isIn) | isIn
  · exact Or.inl (mem_optionalField isIn)
  · exact Or.inr (Or.inl (mem_optionalField isIn))
  · exact Or.inr (Or.inr (Or.inl (mem_optionalField isIn)))
  · refine Or.inr (Or.inr (Or.inr (Or.inl ?_)))
    cases isSkip : settings.skip with
    | false => rw [isSkip] at isIn; cases isIn
    | true => rw [isSkip] at isIn; exact ⟨rfl, List.mem_singleton.mp isIn⟩
  · exact Or.inr (Or.inr (Or.inr (Or.inr (Or.inl (mem_listField isIn)))))
  · exact Or.inr (Or.inr (Or.inr (Or.inr (Or.inr (mem_listField isIn)))))

theorem Settings.proper {settings : Settings} (other : settings ≠ {}) : Proper settings.tree := by
  refine proper_fieldsTree (Settings.fields_filled other) ?_ ?_
  · intro field isIn
    have known := settings.fields_sublist.subset (List.mem_map_of_mem isIn)
    exact isName_of_known _ (List.mem_append_left _ (List.mem_append_left _ known))
  · intro field isIn
    rcases Settings.mem_fields isIn with ⟨text, _, rfl⟩ | ⟨text, _, rfl⟩ | ⟨text, _, rfl⟩ | ⟨_, rfl⟩
      | ⟨filled, rfl⟩ | ⟨filled, rfl⟩
    · exact .text text
    · exact .text text
    · exact .text text
    · exact .boolean true
    · exact .list filled (List.forall_mem_map.mpr fun rule _ => rule.proper)
    · exact .list filled (List.forall_mem_map.mpr fun file _ => file.proper)

theorem Config.mem_fields {config : Config} {field : String × Tree} (isIn : field ∈ config.fields) :
    (∃ text, config.outDir = some text ∧ field = ("outDir", .text text))
      ∨ (∃ text, config.header = some text ∧ field = ("prefix", .text text))
      ∨ (∃ text, config.footer = some text ∧ field = ("postfix", .text text)) := by
  simp only [Config.fields, List.mem_append] at isIn
  rcases isIn with (isIn | isIn) | isIn
  · exact Or.inl (mem_optionalField isIn)
  · exact Or.inr (Or.inl (mem_optionalField isIn))
  · exact Or.inr (Or.inr (mem_optionalField isIn))

theorem Config.proper {config : Config} (other : config ≠ {}) : Proper config.tree := by
  refine proper_fieldsTree (Config.fields_filled other) ?_ ?_
  · intro field isIn
    have known := config.fields_sublist.subset (List.mem_map_of_mem isIn)
    exact isName_of_known _ (List.mem_append_left _ (List.mem_append_right _ known))
  · intro field isIn
    rcases Config.mem_fields isIn with ⟨text, _, rfl⟩ | ⟨text, _, rfl⟩ | ⟨text, _, rfl⟩
    all_goals exact .text text

/-! ## Readers -/

variable {context : Context} {node : Node} {depth : Nat}

/-- A record is read from a tree of fields by copying those that were written. -/
theorem readRecord_fieldsTree {σ : Type} {fields : List (String × Tree)} {known : List String}
    (read : Context × Mark → String → Context → Node → σ → Decoder σ) (copy : String → σ → σ)
    (kind : String) (isDepth : context.depth = depth + 1)
    (reads : ∀ field ∈ fields, ∀ outer, ∀ place : Context, place.depth = depth → ∀ node,
      Depicts field.2 node → ∀ record, read outer field.1 place node record = pure (copy field.1 record))
    (sub : (fields.map Prod.fst).Sublist known) (apart : known.Nodup)
    (depicts : Depicts (fieldsTree fields) node) (empty : σ) :
    ∃ mark, context.readRecord kind known read empty node
      = pure (fields.foldl (fun record field => copy field.1 record) empty, mark) := by
  have zips := fieldsTree_zip fields
  obtain ⟨mark, isRecord⟩ :=
    Context.readRecord_record kind isDepth (by rw [zips]; exact reads) (by rw [zips]; exact sub) apart
      depicts empty
  exact ⟨mark, by rw [isRecord, zips]⟩

private theorem ruleOfValue_shape {value : Value} {rule : ReplaceRule} (apart : value.hasDuplicate = false)
    (isShape : ruleShape value = .ok rule) (filled : rule.find.isEmpty = false) :
    ruleOfValue value = .ok rule := by
  rw [ruleOfValue, apart, isShape]
  dsimp only
  rw [filled]
  rfl

private theorem readRule_tree {rule : ReplaceRule} (filled : rule.find.isEmpty = false)
    (isDepth : context.depth = depth + 1) (depicts : Depicts rule.tree node) :
    readRule context node = pure (.ok rule) := by
  cases rule with
  | pair find insert =>
      have isValue := @Context.readValue_texts node [find, insert] context.source depth context.path
        depicts
      have apart : (Value.list [.text find, .text insert]).hasDuplicate = false := by
        simp [Value.hasDuplicate, Value.anyDuplicate]
      rw [readRule, isDepth, isValue, pure_bind]
      exact congrArg pure (ruleOfValue_shape apart rfl filled)
  | remove find =>
      have apart : (Value.text find).hasDuplicate = false := by simp [Value.hasDuplicate]
      rw [readRule, Context.readValue_text _ _ _ depicts, pure_bind]
      exact congrArg pure (ruleOfValue_shape apart rfl filled)

def PartialFile.copy (source : AdditionalFile) (name : String) (file : PartialFile) : PartialFile :=
  if name == "suffix" then { file with suffix := some source.suffix }
  else { file with content := some source.content }

private theorem readAdditionalFile_tree {file : AdditionalFile} (isDepth : context.depth = depth + 1)
    (depicts : Depicts file.tree node) : readAdditionalFile context node = pure (.ok file) := by
  let read (_ : Context × Mark) (name : String) (place : Context) (value : Node)
      (file : PartialFile) : Decoder PartialFile := do
    let text ← place.readText value
    return if name == "suffix" then { file with suffix := some text }
      else { file with content := some text }
  have reads : ∀ field ∈ file.fields, ∀ outer, ∀ place : Context, place.depth = depth → ∀ node,
      Depicts field.2 node → ∀ record,
        read outer field.1 place node record = pure (PartialFile.copy file field.1 record) := by
    intro field isIn outer place _ node depicts record
    simp only [AdditionalFile.fields, List.mem_cons, List.not_mem_nil, or_false] at isIn
    rcases isIn with rfl | rfl
    · show (place.readText node >>= _) = _
      rw [Context.readText_text depicts, pure_bind]
      rfl
    · show (place.readText node >>= _) = _
      rw [Context.readText_text depicts, pure_bind]
      rfl
  obtain ⟨mark, isRecord⟩ :=
    readRecord_fieldsTree read (PartialFile.copy file) "AdditionalFile" isDepth reads
      (List.Sublist.refl ["suffix", "content"]) (by decide) depicts {}
  show (context.readRecord "AdditionalFile" ["suffix", "content"] read {} node >>= _) = _
  rw [isRecord, pure_bind]
  rfl

private theorem readSettingsField_tree {settings : Settings} {field : String × Tree}
    (finds : ∀ rule ∈ settings.replace, rule.find.isEmpty = false) (isIn : field ∈ settings.fields)
    (isDepth : context.depth = depth + 2) (outer : Context × Mark)
    (depicts : Depicts field.2 node) (record : Settings) :
    readSettingsField outer field.1 context node record = pure (settings.copy field.1 record) := by
  rcases Settings.mem_fields isIn with ⟨text, isText, rfl⟩ | ⟨text, isText, rfl⟩ | ⟨text, isText, rfl⟩
    | ⟨isSkip, rfl⟩ | ⟨_, rfl⟩ | ⟨_, rfl⟩
  · show (context.readOptionalText outer node >>= fun value =>
      pure { record with file := value }) = pure { record with file := settings.file }
    rw [Context.readOptionalText_text depicts, pure_bind, isText]
  · show (context.readOptionalText outer node >>= fun value =>
      pure { record with header := value }) = pure { record with header := settings.header }
    rw [Context.readOptionalText_text depicts, pure_bind, isText]
  · show (context.readOptionalText outer node >>= fun value =>
      pure { record with footer := value }) = pure { record with footer := settings.footer }
    rw [Context.readOptionalText_text depicts, pure_bind, isText]
  · show (context.readBool node >>= fun value =>
      pure { record with skip := value }) = pure { record with skip := settings.skip }
    rw [Context.readBool_boolean depicts, pure_bind, isSkip]
  · show (context.readList readRule node >>= fun value =>
      pure { record with replace := value }) = pure { record with replace := settings.replace }
    rw [Context.readList_list isDepth (fun rule isIn place isPlace node depicts =>
      readRule_tree (finds rule isIn) isPlace depicts) depicts, pure_bind]
  · show (context.readList readAdditionalFile node >>= fun value =>
      pure { record with additionalFiles := value })
        = pure { record with additionalFiles := settings.additionalFiles }
    rw [Context.readList_list isDepth (fun file _ place isPlace node depicts =>
      readAdditionalFile_tree isPlace depicts) depicts, pure_bind]

private theorem readConfigField_tree {config : Config} {field : String × Tree} (isIn : field ∈ config.fields)
    (outer : Context × Mark) (depicts : Depicts field.2 node) (record : Config) :
    readConfigField outer field.1 context node record = pure (config.copy field.1 record) := by
  rcases Config.mem_fields isIn with ⟨text, isText, rfl⟩ | ⟨text, isText, rfl⟩ | ⟨text, isText, rfl⟩
  all_goals
    rw [readConfigField, Context.readOptionalText_text depicts, pure_bind, ← isText]
    rfl

/-! ## Documents -/

/-- Settings that are not the default come back from their tree. -/
theorem decodeText_settings {settings : Settings} (other : settings ≠ {})
    (finds : ∀ rule ∈ settings.replace, rule.find.isEmpty = false) :
    decodeText readSettings (Write.document settings.tree) = .ok settings := by
  refine decodeText_document (Settings.proper other) fun context isDepth node depicts => ?_
  obtain ⟨mark, isRecord⟩ :=
    readRecord_fieldsTree readSettingsField settings.copy "Annotation" isDepth
      (fun field isIn outer place isPlace node depicts =>
        readSettingsField_tree finds isIn isPlace outer depicts)
      settings.fields_sublist (by decide) depicts {}
  rw [readSettings, isRecord, pure_bind, settings.foldl_copy]

/-- A configuration that is not the default comes back from its tree. -/
theorem decodeText_config {config : Config} (other : config ≠ {}) :
    decodeText readConfig (Write.document config.tree) = .ok config := by
  refine decodeText_document (Config.proper other) fun context isDepth node depicts => ?_
  obtain ⟨mark, isRecord⟩ :=
    readRecord_fieldsTree readConfigField config.copy "Config" isDepth
      (fun field isIn outer place _ node depicts => readConfigField_tree isIn outer depicts)
      config.fields_sublist (by decide) depicts {}
  rw [readConfig, isRecord, pure_bind, config.foldl_copy]

end Tangle.Directive
