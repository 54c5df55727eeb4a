/-! Names that generated code must not declare. -/

namespace TableModels.Naming

/-- Words with a fixed meaning in generated code. -/
def keywords : List String := [
  "False", "None", "True", "and", "as", "assert", "async", "await",
  "break", "class", "continue", "def", "del", "elif", "else", "except",
  "finally", "for", "from", "global", "if", "import", "in", "is",
  "lambda", "nonlocal", "not", "or", "pass", "raise", "return", "try",
  "while", "with", "yield"]

/-- Words with a meaning in some places only. -/
def softKeywords : List String := ["match", "case", "type", "_"]

/-- Names that annotations refer to. A field of such a name would hide the type. -/
def annotationNames : List String := [
  "Any", "Optional", "TYPE_CHECKING", "BaseModel", "ConfigDict", "Field",
  "Decimal", "UUID", "date", "datetime", "time", "timedelta",
  "int", "float", "str", "bool", "bytes", "list", "dict", "object"]

/-- Attributes of every model. -/
def modelAttributes : List String := [
  "model_config", "model_fields", "model_computed_fields", "model_extra",
  "model_fields_set", "model_construct", "model_copy", "model_dump",
  "model_dump_json", "model_json_schema", "model_parametrized_name",
  "model_post_init", "model_rebuild", "model_validate", "model_validate_json",
  "model_validate_strings", "copy", "dict", "json", "parse_obj", "parse_raw",
  "parse_file", "from_orm", "construct", "schema", "schema_json", "validate",
  "update_forward_refs"]

def reservedFieldNames : List String := keywords ++ softKeywords ++ annotationNames ++ modelAttributes

/-- Lower-case forms that no class name may have. -/
def reservedClassNames : List String := [
  "false", "none", "true", "and", "as", "assert", "async", "await",
  "break", "class", "continue", "def", "del", "elif", "else", "except",
  "finally", "for", "from", "global", "if", "import", "in", "is",
  "lambda", "nonlocal", "not", "or", "pass", "raise", "return", "try",
  "while", "with", "yield", "match", "case", "type", "_",
  "any", "optional", "type_checking", "basemodel", "configdict", "field",
  "decimal", "uuid", "date", "datetime", "time", "timedelta",
  "int", "float", "str", "bool", "bytes", "list", "dict", "object"]

end TableModels.Naming
