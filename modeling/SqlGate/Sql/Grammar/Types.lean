import SqlGate.Sql.Grammar.Names

/-!
# Names of types

A type matters to the grammar only in one respect: a text after the name of a known type is a
literal of that type, and after any other name it is not. `TypeName` keeps that much.
-/

namespace SqlGate.Sql

/-- What a type name says about a text after it. -/
inductive TypeName where
  /-- The type of time spans, whose literals may go on with units. -/
  | interval
  | known
  /-- A name that the grammar does not know. -/
  | custom
  deriving Repr, DecidableEq

namespace Reader

/-- A number in parentheses, or nothing. -/
def precision? : Reader Unit := do if ← symbolAhead "(" then parens count

/-- A precision and a scale in parentheses, or nothing. -/
def scale? : Reader Unit := do
  if ← symbolAhead "(" then
    parens do
      count
      if ← symbol "," then signedCount

/-- A length in characters in parentheses, or nothing. -/
def length? : Reader Unit := do
  if ← symbolAhead "(" then
    parens do
      if ← word "MAX" then pure ()
      else
        count
        let _ ← oneOf ["CHARACTERS", "OCTETS"]

/-- The time zone of a time type, or nothing. -/
def timeZone? : Reader Unit := do
  match ← oneOf ["WITH", "WITHOUT"] with
  | some _ => expectWords ["TIME", "ZONE"]
  | none => pure ()

/-- The arguments of a type that is not known: words, numbers and texts in parentheses. -/
def modifiers? : Reader Unit := do
  if ← symbol "(" then
    let _ ← many do
      match ← peek with
      | .word .. | .number _ | .quoted .plain _ | .symbol "," =>
        let _ ← next
        return some ()
      | _ => return none
    expectSymbol ")"

/-- The fields of a time span type. -/
def spanFields : Reader Unit := do
  let units := ["YEAR", "MONTH", "DAY", "HOUR", "MINUTE", "SECOND"]
  match ← oneOf units with
  | some _ => if ← word "TO" then let _ ← expectOneOf units
  | none => pure ()

/-- The sign of a number type, or nothing. -/
def unsigned? : Reader Unit := do let _ ← oneOf ["UNSIGNED", "SIGNED"]

/-- The types that are one word and take nothing. -/
def plainTypes : List String :=
  ["BOOLEAN", "BOOL", "REAL", "FLOAT4", "FLOAT32", "FLOAT64", "FLOAT8", "UUID", "DATE", "DATE32",
    "INT16", "INT32", "INT64", "INT128", "INT256", "UINT8", "UINT16", "UINT32", "UINT64",
    "UINT128", "UINT256", "HUGEINT", "UHUGEINT", "UBIGINT", "USMALLINT", "UTINYINT", "JSON",
    "JSONB", "REGCLASS", "TEXT", "TINYTEXT", "MEDIUMTEXT", "LONGTEXT", "BYTEA", "TINYBLOB",
    "MEDIUMBLOB", "LONGBLOB", "TRIGGER", "TSVECTOR", "TSQUERY", "POINT", "LINE", "LSEG", "BOX",
    "PATH", "POLYGON", "CIRCLE"]

/-- The types that may have a precision. -/
def preciseTypes : List String :=
  ["CLOB", "BINARY", "BLOB", "BYTES", "VARBIT", "DATETIME", "TIMESTAMPTZ", "TIMESTAMP_NTZ",
    "TIMETZ", "STRING"]

/-- The types of whole numbers. -/
def integerTypes : List String :=
  ["TINYINT", "SMALLINT", "MEDIUMINT", "INT", "INTEGER", "BIGINT", "INT2", "INT4", "INT8"]

/-- The types of exact and of approximate numbers that may have a precision and a scale. -/
def scaledTypes : List String :=
  ["FLOAT", "NUMERIC", "DECIMAL", "DEC", "BIGNUMERIC", "BIGDECIMAL"]

/-- The rest of a type after its first word; `inner` reads a type inside it. -/
def typeAfter (inner : Reader TypeName) (k : String) : Reader TypeName := do
  if plainTypes.contains k then return .known
  else if preciseTypes.contains k then
    precision?
    return .known
  else if integerTypes.contains k then
    precision?
    unsigned?
    return .known
  else if scaledTypes.contains k then
    scale?
    return .known
  else match k with
  | "DOUBLE" =>
    if ← word "PRECISION" then return .known
    scale?
    return .known
  | "VARCHAR" | "NVARCHAR" | "VARBINARY" =>
    length?
    return .known
  | "CHARACTER" | "CHAR" =>
    if ← word "VARYING" then length?
    else if ← words ["LARGE", "OBJECT"] then precision?
    else length?
    return .known
  | "BIT" =>
    let _ ← word "VARYING"
    precision?
    return .known
  | "TIMESTAMP" | "TIME" =>
    precision?
    timeZone?
    return .known
  | "INTERVAL" =>
    spanFields
    precision?
    return .interval
  | "ENUM" =>
    let _ ← parens (commas text)
    return .known
  | "SET" =>
    let _ ← parens (commas text)
    return .known
  | "ARRAY" =>
    expectSymbol "<"
    let _ ← inner
    expectSymbol ">"
    return .known
  | "TABLE" =>
    if ← symbolAhead "(" then
      let _ ← parens (commas do
        let _ ← ident
        let _ ← inner)
    return .known
  | "SIGNED" | "UNSIGNED" =>
    let _ ← oneOf ["INTEGER", "INT"]
    return .known
  | _ => expected "a data type name"

/-- The first words of known types. -/
def typeWords : List String :=
  plainTypes ++ preciseTypes ++ integerTypes ++ scaledTypes ++
    ["DOUBLE", "VARCHAR", "NVARCHAR", "VARBINARY", "CHARACTER", "CHAR", "BIT", "TIMESTAMP", "TIME",
      "INTERVAL", "ENUM", "SET", "ARRAY", "TABLE", "SIGNED", "UNSIGNED"]

/-- The name of a type; each pair of brackets after it makes it an array. -/
def typeWith (inner : Reader TypeName) : Reader TypeName := do
  let t ← peek
  let base ←
    match t with
    | .word .. =>
      if typeWords.contains t.keyword then
        let _ ← next
        typeAfter inner t.keyword
      else if t.keyword = "ANY" ∧ (← peekAfter 1).keyword = "TYPE" then
        let _ ← next
        pure .known
      else
        let _ ← name
        modifiers?
        pure .custom
    | _ => expected "a data type name"
  let brackets ← many do
    if ← symbol "[" then
      let _ ← attempt count
      expectSymbol "]"
      return some ()
    else return none
  return if brackets.isEmpty then base else .known

end Reader

end SqlGate.Sql
