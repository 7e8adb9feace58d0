import SqlGate.Duration
import SqlGate.Text.Basic

/-!
# The database of a configuration

The database is found through a variable of the environment that holds a URL, or else a URL, or else
the parts of one. A password may come from a variable as well. `redactedTarget` is the place without
the credentials.
-/

namespace SqlGate

/-- Looks up a variable of the environment. -/
abbrev Environment := String → Option String

namespace Config

/-- Where the database is and how connections to it are made. -/
structure Database where
  urlVariable : Option String
  url : Option String
  host : String
  port : Nat
  database : String
  username : String
  password : Option String
  passwordVariable : Option String
  maxConnections : Nat
  connectTimeout : Duration

namespace Database

/-- What holds of a database that nothing is said about. -/
def initial : Database where
  urlVariable := none
  url := none
  host := "localhost"
  port := 5432
  database := "postgres"
  username := "postgres"
  password := none
  passwordVariable := none
  maxConnections := 10
  connectTimeout := .ofSecs 10

/-- The fields of the section. -/
def fields : List (Document.Field Database) :=
  let text := Document.optional Document.string
  [.of "url_env" false text fun v d => { d with urlVariable := v },
   .of "url" false text fun v d => { d with url := v },
   .of "host" false Document.string fun v d => { d with host := v },
   .of "port" false (Document.unsigned 16 "u16") fun v d => { d with port := v },
   .of "database" false Document.string fun v d => { d with database := v },
   .of "username" false Document.string fun v d => { d with username := v },
   .of "password" false text fun v d => { d with password := v },
   .of "password_env" false text fun v d => { d with passwordVariable := v },
   .of "max_connections" false (Document.unsigned 32 "u32") fun v d =>
     { d with maxConnections := v },
   .of "connect_timeout" false Duration.ofDocument fun v d => { d with connectTimeout := v }]

/-- The section of a document. -/
def ofDocument : Document.Read Database := Document.struct "DatabaseConfig" fields initial

/-- A member of an object that may be left out. -/
def optionalMember (name : String) (s : Option String) : List (String × Json) :=
  s.toList.map fun s => (name, .str s)

/-- The section as a document. -/
def toJson (d : Database) : Json :=
  .object (optionalMember "url_env" d.urlVariable ++ optionalMember "url" d.url ++
    [("host", .str d.host), ("port", .nat d.port), ("database", .str d.database),
     ("username", .str d.username)] ++
    optionalMember "password" d.password ++ optionalMember "password_env" d.passwordVariable ++
    [("max_connections", .nat d.maxConnections), ("connect_timeout", d.connectTimeout.toJson)])

/-- The password that connections use. -/
def effectivePassword (d : Database) (env : Environment) : Option String :=
  (d.passwordVariable.bind env) <|> d.password

/-- The URL that connections use. -/
def connectionString (d : Database) (env : Environment) : String :=
  match (d.urlVariable.bind env) <|> d.url with
  | some url => url
  | none =>
    let password := match d.effectivePassword env with
      | some p => ":" ++ p
      | none => ""
    "postgresql://" ++ d.username ++ password ++ "@" ++ d.host ++ ":" ++ s!"{d.port}" ++ "/" ++
      d.database

/-- The characters from the last occurrence of one on, and how many come before it. -/
def lastIndex? (c : Char) (cs : List Char) : Option Nat :=
  (cs.zipIdx.filter (·.1 = c)).getLast?.map (·.2)

/-- A URL without what stands between its scheme and the last at sign. -/
def redactUrl (url : String) : String :=
  let cs := url.toList
  match Text.find? "://".toList cs, lastIndex? '@' cs with
  | some scheme, some at_ =>
    if scheme < at_ then
      String.ofList (cs.take scheme) ++ "://***" ++ String.ofList (cs.drop at_)
    else url
  | _, _ => url

/-- The place of the database without credentials. -/
def redactedTarget (d : Database) (env : Environment) : String :=
  if d.urlVariable.isSome || d.url.isSome then redactUrl (d.connectionString env)
  else d.host ++ ":" ++ s!"{d.port}" ++ "/" ++ d.database

end Database

end Config

end SqlGate
