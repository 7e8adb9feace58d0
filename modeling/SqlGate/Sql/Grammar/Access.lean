import SqlGate.Sql.Grammar.Expr

/-!
# Statements about privileges

Privileges are granted, denied and revoked: some privileges, on some objects or on none, to or from
some roles.
-/

namespace SqlGate.Sql

namespace Grammar

open Reader

variable (g : Grammar)

/-- Privileges of several words, which take nothing. -/
def longPrivileges : List (List String) :=
  [["IMPORTED", "PRIVILEGES"], ["ADD", "SEARCH", "OPTIMIZATION"], ["ATTACH", "LISTING"],
    ["ATTACH", "POLICY"], ["BIND", "SERVICE", "ENDPOINT"], ["EVOLVE", "SCHEMA"],
    ["IMPORT", "SHARE"], ["OVERRIDE", "SHARE", "RESTRICTIONS"],
    ["PURCHASE", "DATA", "EXCHANGE", "LISTING"], ["READ", "SESSION"], ["RESOLVE", "ALL"]]

/-- Privileges of one word, which take nothing. -/
def shortPrivileges : List String :=
  ["APPLYBUDGET", "AUDIT", "CONNECT", "DELETE", "DROP", "EXEC", "FAILOVER", "OPERATE", "OWNERSHIP",
    "READ", "REFERENCE_USAGE", "REPLICATE", "TEMP", "TEMPORARY", "TRIGGER", "TRUNCATE", "USAGE",
    "WRITE"]

/-- The kinds of objects that may be created. -/
def creatable : List (List String) :=
  [["ACCOUNT"], ["APPLICATION", "PACKAGE"], ["APPLICATION"], ["COMPUTE", "POOL"],
    ["DATA", "EXCHANGE", "LISTING"], ["DATABASE"], ["EXTERNAL", "VOLUME"], ["FAILOVER", "GROUP"],
    ["INTEGRATION"], ["NETWORK", "POLICY"], ["ORGANIZATION", "LISTING"], ["REPLICATION", "GROUP"],
    ["ROLE"], ["SCHEMA"], ["SHARE"], ["USER"], ["WAREHOUSE"]]

/-- Takes the first of some runs of keywords that comes next. -/
def firstOf (runs : List (List String)) : Reader Bool := do
  for ws in runs do
    if ← words ws then return true
  return false

/-- One privilege. -/
def privilege : Reader Unit := do
  if ← firstOf longPrivileges then pure ()
  else if ← words ["DATABASE", "ROLE"] then
    let _ ← name
  else if (← oneOf shortPrivileges).isSome then pure ()
  else
    match ← oneOf ["APPLY", "CREATE", "EXECUTE", "INSERT", "MANAGE", "MODIFY", "MONITOR",
      "REFERENCES", "ROLE", "SELECT", "UPDATE"] with
    | some "APPLY" =>
      if !(← firstOf [["AGGREGATION", "POLICY"], ["AUTHENTICATION", "POLICY"], ["JOIN", "POLICY"],
          ["MASKING", "POLICY"], ["PACKAGES", "POLICY"], ["PASSWORD", "POLICY"],
          ["PROJECTION", "POLICY"], ["ROW", "ACCESS", "POLICY"], ["SESSION", "POLICY"], ["TAG"]])
      then expected "GRANT APPLY type"
    | some "CREATE" => let _ ← firstOf creatable
    | some "EXECUTE" =>
      let _ ← firstOf [["DATA", "METRIC", "FUNCTION"], ["MANAGED", "ALERT"], ["MANAGED", "TASK"],
        ["ALERT"], ["TASK"]]
    | some "MANAGE" =>
      if !(← firstOf [["ACCOUNT", "SUPPORT", "CASES"], ["EVENT", "SHARING"], ["GRANTS"],
          ["LISTING", "AUTO", "FULFILLMENT"], ["ORGANIZATION", "SUPPORT", "CASES"],
          ["USER", "SUPPORT", "CASES"], ["WAREHOUSES"]])
      then expected "GRANT MANAGE type"
    | some "MODIFY" =>
      let _ ← firstOf [["LOG", "LEVEL"], ["TRACE", "LEVEL"], ["SESSION", "LOG", "LEVEL"],
        ["SESSION", "TRACE", "LEVEL"]]
    | some "MONITOR" => let _ ← oneOf ["EXECUTION", "SECURITY", "USAGE"]
    | some "ROLE" => let _ ← name
    | some _ => let _ ← names?
    | none => expected "a privilege keyword"

/-- All objects of a kind in a schema or a database. -/
def wideObjects : List (List String) :=
  [["ALL", "TABLES", "IN", "SCHEMA"], ["ALL", "EXTERNAL", "TABLES", "IN", "SCHEMA"],
    ["ALL", "VIEWS", "IN", "SCHEMA"], ["ALL", "MATERIALIZED", "VIEWS", "IN", "SCHEMA"],
    ["ALL", "FUNCTIONS", "IN", "SCHEMA"], ["ALL", "SEQUENCES", "IN", "SCHEMA"],
    ["FUTURE", "SCHEMAS", "IN", "DATABASE"], ["FUTURE", "TABLES", "IN", "SCHEMA"],
    ["FUTURE", "EXTERNAL", "TABLES", "IN", "SCHEMA"], ["FUTURE", "VIEWS", "IN", "SCHEMA"],
    ["FUTURE", "MATERIALIZED", "VIEWS", "IN", "SCHEMA"], ["FUTURE", "SEQUENCES", "IN", "SCHEMA"],
    ["RESOURCE", "MONITOR"], ["COMPUTE", "POOL"], ["FAILOVER", "GROUP"], ["REPLICATION", "GROUP"],
    ["EXTERNAL", "VOLUME"]]

/-- Objects on which privileges are held. -/
def objects : Reader Unit := do
  if ← firstOf wideObjects then
    let _ ← commas name
  else
    let kind ← oneOf ["SEQUENCE", "DATABASE", "SCHEMA", "TABLE", "VIEW", "WAREHOUSE",
      "INTEGRATION", "USER", "CONNECTION", "PROCEDURE", "FUNCTION"]
    let _ ← commas nameOrStar
    if kind = some "PROCEDURE" ∨ kind = some "FUNCTION" then
      if ← symbolAhead "(" then
        let _ ← parens (commasBefore ")" g.typeName)

/-- Privileges and the objects on which they are held; whether there are such objects. -/
def privileges : Reader Bool := do
  if ← word "ALL" then
    let _ ← word "PRIVILEGES"
  else
    let _ ← commas privilege
  if ← word "ON" then
    g.objects
    return true
  else return false

/-- Those who hold privileges. A kind that is named holds for all that follow it. -/
def grantees (isPublic : Bool) : Nat → Reader Unit
  | 0 => pure ()
  | fuel + 1 => do
    let isPublic ←
      if (← oneOf ["ROLE", "USER", "SHARE", "GROUP"]).isSome then pure false
      else if ← word "PUBLIC" then pure true
      else if ← words ["DATABASE", "ROLE"] then pure false
      else if ← words ["APPLICATION", "ROLE"] then pure false
      else if ← word "APPLICATION" then pure false
      else pure isPublic
    if !isPublic then
      let _ ← name
      if ← symbol ":" then let _ ← ident
    if ← symbol "," then grantees isPublic fuel

/-- All who hold privileges. -/
def allGrantees : Reader Unit := do grantees false ((← read).rest.length + 1)

/-- The rest of a statement that grants. -/
def grant : Reader Statement := do
  let _ ← g.privileges
  expectWord "TO"
  allGrantees
  let _ ← words ["WITH", "GRANT", "OPTION"]
  if ← words ["COPY", "CURRENT", "GRANTS"] then pure ()
  else let _ ← words ["REVOKE", "CURRENT", "GRANTS"]
  if ← word "AS" then let _ ← ident
  if ← words ["GRANTED", "BY"] then let _ ← ident
  return .other "GRANT" [] [] []

/-- The rest of a statement that revokes. -/
def revoke : Reader Statement := do
  let _ ← g.privileges
  expectWord "FROM"
  allGrantees
  if ← words ["GRANTED", "BY"] then let _ ← ident
  dropBehavior
  return .other "REVOKE" [] [] []

/-- The rest of a statement that denies. -/
def deny : Reader Statement := do
  if !(← g.privileges) then refuse "DENY statements must specify an object"
  expectWord "TO"
  allGrantees
  dropBehavior
  if ← word "AS" then let _ ← ident
  return .other "DENY" [] [] []

end Grammar

end SqlGate.Sql
