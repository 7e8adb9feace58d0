import Mathlib.Data.List.TakeWhile
import Mathlib.Tactic.ByContra
import SqlGate.Proofs.Config.Redaction
import SqlGate.Proofs.Text.Bytes
import SqlGate.Proofs.Text.Digits
import SqlGate.Text.Bytes

/-!
# Connection strings as URIs

A connection string that is put together from parts is read as a URI: what comes before the host up
to the last at sign is the user name and, after its first colon, the password, and escapes may stand
for bytes. The parts are put into the string as they are. So they are read back only if there is
nothing in them that ends a part, and no escape (`connectionString_read_iff`).

What is read never has more bytes than it is read from. So a part that is cut short, or that has an
escape in it, cannot be read back, whatever follows it.
-/

namespace SqlGate

/-! ## Escapes -/

namespace Text.Percent

/-- The bytes of a text in which a percent sign with two hexadecimal digits stands for a byte. -/
def bytes : List Char → List UInt8
  | '%' :: h :: l :: cs =>
    match Hex.digit? h, Hex.digit? l with
    | some high, some low => UInt8.ofNat (high * 16 + low) :: bytes cs
    | _, _ => String.utf8EncodeChar '%' ++ bytes (h :: l :: cs)
  | c :: cs => String.utf8EncodeChar c ++ bytes cs
  | [] => []

/-- Whether a percent sign with two hexadecimal digits stands in a text. -/
def hasEscape : List Char → Bool
  | '%' :: h :: l :: cs =>
    ((Hex.digit? h).isSome && (Hex.digit? l).isSome) || hasEscape (h :: l :: cs)
  | _ :: cs => hasEscape cs
  | [] => false

/-- A text with its escapes replaced by what they stand for, if that is a text. -/
def decode? (cs : List Char) : Option String := Utf8.decode? (bytes cs)

/-- How many bytes characters take. -/
def size (cs : List Char) : Nat := (cs.flatMap String.utf8EncodeChar).length

theorem size_cons (c : Char) (cs : List Char) :
    size (c :: cs) = (String.utf8EncodeChar c).length + size cs := by
  rw [size, List.flatMap_cons, List.length_append, size]

theorem size_append (cs cs' : List Char) : size (cs ++ cs') = size cs + size cs' := by
  rw [size, List.flatMap_append, List.length_append, size, size]

theorem length_utf8EncodeChar_pos (c : Char) : 0 < (String.utf8EncodeChar c).length := by
  simp [Char.utf8Size_pos]

/-- What is cut short takes fewer bytes. -/
theorem size_takeWhile_lt {p : Char → Bool} {cs : List Char} (h : ∃ c ∈ cs, p c = false) :
    size (cs.takeWhile p) < size cs := by
  induction cs with
  | nil => simp at h
  | cons c cs ih =>
      rw [List.takeWhile_cons]
      split
      next hc =>
        obtain ⟨d, hd, hp⟩ := h
        rcases List.mem_cons.1 hd with rfl | hd
        · rw [hc] at hp
          cases hp
        · rw [size_cons, size_cons]
          exact Nat.add_lt_add_left (ih ⟨d, hd, hp⟩) _
      next =>
        rw [size_cons]
        exact Nat.add_pos_left (length_utf8EncodeChar_pos c) _

/-- A character that begins no escape changes nothing of what is said of the rest. -/
theorem bytes_append_or (c : Char) {cs : List Char} {bs : List UInt8} {escaped : Bool}
    (h : escaped = false ∧ bs = cs.flatMap String.utf8EncodeChar ∨
      escaped = true ∧ bs.length < size cs) :
    escaped = false ∧
        String.utf8EncodeChar c ++ bs = (c :: cs).flatMap String.utf8EncodeChar ∨
      escaped = true ∧ (String.utf8EncodeChar c ++ bs).length < size (c :: cs) := by
  refine h.imp (And.imp_right fun heq => ?_) (And.imp_right fun hlt => ?_)
  · rw [heq, List.flatMap_cons]
  · rw [size_cons, List.length_append]
    exact Nat.add_lt_add_left hlt _

/-- A text without escapes is taken as it is, and one with an escape is shortened. -/
theorem bytes_eq_or (cs : List Char) :
    hasEscape cs = false ∧ bytes cs = cs.flatMap String.utf8EncodeChar ∨
      hasEscape cs = true ∧ (bytes cs).length < size cs := by
  fun_induction bytes cs with
  | case1 h l cs high low hh hl ih =>
      refine .inr ⟨by simp [hasEscape, hh, hl], ?_⟩
      have hle : (bytes cs).length ≤ size cs := by
        rcases ih with ⟨-, heq⟩ | ⟨-, hlt⟩
        · exact (congrArg List.length heq).le
        · exact hlt.le
      have hpos := length_utf8EncodeChar_pos h
      have hpos' := length_utf8EncodeChar_pos '%'
      rw [size_cons, size_cons, size_cons, List.length_cons]
      omega
  | case2 h l cs hnot ih =>
      have hnone : ((Hex.digit? h).isSome && (Hex.digit? l).isSome) = false := by
        by_contra htwo
        simp only [Bool.not_eq_false, Bool.and_eq_true, Option.isSome_iff_exists] at htwo
        obtain ⟨⟨high, hh⟩, low, hl⟩ := htwo
        exact hnot high low hh hl
      have hsame : hasEscape ('%' :: h :: l :: cs) = hasEscape (h :: l :: cs) := by
        rw [hasEscape, hnone, Bool.false_or]
      rw [hsame]
      exact bytes_append_or '%' ih
  | case3 c cs hnot ih =>
      rw [hasEscape.eq_2 c cs hnot]
      exact bytes_append_or c ih
  | case4 => exact .inl ⟨rfl, rfl⟩

theorem length_bytes_le (cs : List Char) : (bytes cs).length ≤ size cs := by
  rcases bytes_eq_or cs with ⟨-, heq⟩ | ⟨-, hlt⟩
  · exact (congrArg List.length heq).le
  · exact hlt.le

/-- A text does not take more bytes than what it is read from. -/
theorem size_le_of_decode? {cs : List Char} {s : String} (h : decode? cs = some s) :
    size s.toList ≤ size cs := by
  have hle := Utf8.length_encode_le_of_decode? h
  rw [Utf8.encode_eq] at hle
  exact hle.trans (length_bytes_le cs)

/-- A text is read back from its beginning if that is all of it, and has no escape. -/
theorem decode?_takeWhile_iff {p : Char → Bool} {s : String} :
    decode? (s.toList.takeWhile p) = some s ↔
      (∀ c ∈ s.toList, p c = true) ∧ hasEscape s.toList = false := by
  constructor
  · intro h
    have hle := Utf8.length_encode_le_of_decode? h
    rw [Utf8.encode_eq] at hle
    have hall : ∀ c ∈ s.toList, p c = true := by
      by_contra hnot
      push Not at hnot
      obtain ⟨c, hc, hp⟩ := hnot
      have hlt := size_takeWhile_lt ⟨c, hc, Bool.eq_false_iff.2 hp⟩
      have hshort := length_bytes_le (s.toList.takeWhile p)
      exact absurd (hle.trans hshort) (Nat.not_le.2 hlt)
    rw [List.takeWhile_eq_self_iff.2 hall] at hle
    refine ⟨hall, ?_⟩
    rcases bytes_eq_or s.toList with ⟨hnone, -⟩ | ⟨-, hlt⟩
    · exact hnone
    · exact absurd hle (Nat.not_le.2 hlt)
  · rintro ⟨hall, hnone⟩
    rw [List.takeWhile_eq_self_iff.2 hall, decode?]
    rcases bytes_eq_or s.toList with ⟨-, heq⟩ | ⟨hsome, -⟩
    · rw [heq, ← Utf8.encode_eq, Utf8.decode?_encode]
    · rw [hnone] at hsome
      cases hsome

theorem decode?_iff {s : String} : decode? s.toList = some s ↔ hasEscape s.toList = false := by
  have hiff := decode?_takeWhile_iff (p := fun _ => true) (s := s)
  rw [List.takeWhile_eq_self_iff.2 fun _ _ => rfl] at hiff
  simpa using hiff

end Text.Percent

/-! ## Reading URIs -/

namespace Config.Database

open Text

/-- Where a URI points, and as whom. -/
structure Target where
  username : String
  password : Option String
  host : String
  port : Option Nat
  database : String
  deriving Repr, DecidableEq

/-- Whether a character may stand in the part of a URI that says who and where. -/
def inAuthority (c : Char) : Bool := c ≠ '/' && c ≠ '?' && c ≠ '#'

/-- Whether a character may stand in the path of a URI. -/
def inPath (c : Char) : Bool := c ≠ '?' && c ≠ '#'

/-- The user name and the password of what stands before the at sign. -/
def credentials? (userinfo : List Char) : Option (String × Option String) := do
  let username ← Percent.decode? (userinfo.takeWhile (· ≠ ':'))
  match userinfo.dropWhile (· ≠ ':') with
  | [] => return (username, none)
  | _ :: cs => return (username, some (← Percent.decode? cs))

/-- The number that decimal digits write. -/
def port? (cs : List Char) : Option Nat :=
  if cs ≠ [] ∧ cs.all Char.isDigit then some (Nat.ofDigitChars 10 cs 0) else none

/-- The host, and the port if one is given. -/
def place? (cs : List Char) : Option (String × Option Nat) :=
  match lastIndex? ':' cs with
  | some i => (port? (cs.drop (i + 1))).map fun n => (String.ofList (cs.take i), some n)
  | none => some (String.ofList cs, none)

namespace Target

/-- What stands before the last at sign of an authority, and what stands after it. -/
def userinfoAndPlace (authority : List Char) : List Char × List Char :=
  match lastIndex? '@' authority with
  | some i => (authority.take i, authority.drop (i + 1))
  | none => ([], authority)

/-- What a URI says after its scheme. -/
def ofRest? (rest : List Char) : Option Target := do
  let (userinfo, place) := userinfoAndPlace (rest.takeWhile inAuthority)
  let (username, password) ← credentials? userinfo
  let (host, port) ← place? place
  let database ← Percent.decode? (((rest.dropWhile inAuthority).takeWhile inPath).drop 1)
  return ⟨username, password, host, port, database⟩

/-- What a URI says. -/
def ofUri? (uri : String) : Option Target := do
  let scheme ← find? "://".toList uri.toList
  ofRest? (uri.toList.drop (scheme + 3))

end Target

/-- What the fields of a database say. -/
def target (d : Database) (env : Environment) : Target :=
  ⟨d.username, d.effectivePassword env, d.host, some d.port, d.database⟩

/-! ## Credentials -/

/-- A user name and a password as they are put into a connection string. -/
def written (username : String) (password : Option String) : List Char :=
  username.toList ++ password.elim [] fun p => ':' :: p.toList

theorem size_le_of_credentials? {userinfo : List Char} {username : String}
    {password : Option String} (h : credentials? userinfo = some (username, password)) :
    Percent.size (written username password) ≤ Percent.size userinfo := by
  have hsplit : Percent.size userinfo = Percent.size (userinfo.takeWhile (· ≠ ':')) +
      Percent.size (userinfo.dropWhile (· ≠ ':')) := by
    rw [← Percent.size_append, List.takeWhile_append_dropWhile]
  obtain ⟨name, hname, h⟩ := Option.bind_eq_some_iff.1 h
  have hle := Percent.size_le_of_decode? hname
  split at h
  next hnil =>
    cases h
    rw [written, Option.elim_none, List.append_nil, hsplit]
    exact hle.trans (Nat.le_add_right _ _)
  next c cs hcons =>
    obtain ⟨word, hword, h⟩ := Option.bind_eq_some_iff.1 h
    cases h
    have hcolon : c = ':' := by
      have hhead := List.head?_dropWhile_not (fun c => decide (c ≠ ':')) userinfo
      rw [hcons] at hhead
      simpa using hhead
    subst hcolon
    rw [written, Percent.size_append, hsplit, hcons, Option.elim_some, Percent.size_cons,
      Percent.size_cons]
    exact Nat.add_le_add hle (Nat.add_le_add_left (Percent.size_le_of_decode? hword) _)

theorem takeWhile_written (username : String) (password : Option String) :
    (written username password).takeWhile (· ≠ ':') = username.toList.takeWhile (· ≠ ':') := by
  unfold written
  induction username.toList with
  | nil => cases password <;> rfl
  | cons c cs ih =>
      rw [List.cons_append, List.takeWhile_cons, List.takeWhile_cons, ih]

/-- Credentials are read back if there is no colon in the user name, and no escape. -/
theorem credentials?_written_iff {username : String} {password : Option String} :
    credentials? (written username password) = some (username, password) ↔
      ((∀ c ∈ username.toList, c ≠ ':') ∧ Percent.hasEscape username.toList = false) ∧
        ∀ p, password = some p → Percent.hasEscape p.toList = false := by
  have hname : Percent.decode? ((written username password).takeWhile (· ≠ ':')) = some username ↔
      (∀ c ∈ username.toList, c ≠ ':') ∧ Percent.hasEscape username.toList = false := by
    rw [takeWhile_written, Percent.decode?_takeWhile_iff]
    simp only [decide_eq_true_eq]
  have hrest : (∀ c ∈ username.toList, c ≠ ':') →
      (written username password).dropWhile (· ≠ ':') =
        password.elim [] fun p => ':' :: p.toList := by
    intro hcolon
    rw [written, List.dropWhile_append_of_pos (by simpa using hcolon)]
    cases password <;> rfl
  constructor
  · intro h
    obtain ⟨name, hn, h⟩ := Option.bind_eq_some_iff.1 h
    have heq : name = username := by
      split at h
      next => cases h; rfl
      next =>
        obtain ⟨word, -, h⟩ := Option.bind_eq_some_iff.1 h
        cases h
        rfl
    have hplain := hname.1 (heq ▸ hn)
    refine ⟨hplain, ?_⟩
    rintro p rfl
    rw [hrest hplain.1] at h
    obtain ⟨word, hword, h⟩ := Option.bind_eq_some_iff.1 h
    cases h
    exact Percent.decode?_iff.1 hword
  · rintro ⟨hplain, hpassword⟩
    rw [credentials?, hname.2 hplain, hrest hplain.1]
    cases password with
    | none => rfl
    | some p =>
        change (Percent.decode? p.toList >>= _) = _
        rw [Percent.decode?_iff.2 (hpassword p rfl)]
        rfl

/-! ## Hosts -/

/-- A text that may name a host: nothing in it ends the host, or the part before it. -/
def HostName (host : String) : Prop := ∀ c ∈ host.toList, inAuthority c = true ∧ c ≠ '@'

instance (host : String) : Decidable (HostName host) := List.decidableBAll _ host.toList

theorem colon_not_mem_digits (n : Nat) : ':' ∉ digits n := fun h =>
  absurd (isDigit_of_mem_digits h) (by decide)

theorem place?_eq (host : String) (port : Nat) :
    place? (host.toList ++ ':' :: digits port) = some (host, some port) := by
  have hport : port? (digits port) = some port := by
    rw [port?, if_pos, ofDigitChars_digits]
    exact ⟨Nat.toDigits_ne_nil, List.all_eq_true.2 fun c hc => isDigit_of_mem_digits hc⟩
  have hdrop : (host.toList ++ ':' :: digits port).drop (host.toList.length + 1) = digits port := by
    rw [← List.drop_drop, List.drop_left]
    rfl
  rw [place?, lastIndex?_append_cons _ (colon_not_mem_digits port)]
  simp only [hdrop, hport, Option.map_some, List.take_left, String.ofList_toList]

/-! ## Whole strings -/

namespace Target

section Rest

variable {username host database : String} {password : Option String} {port : Nat}

/-- What comes after the scheme of a connection string. -/
def rest (username : String) (password : Option String) (host : String) (port : Nat)
    (database : String) : List Char :=
  written username password ++ '@' :: (host.toList ++ ':' :: digits port) ++ '/' :: database.toList

theorem inAuthority_place (h : HostName host) (port : Nat) :
    ∀ c ∈ '@' :: (host.toList ++ ':' :: digits port), inAuthority c = true := by
  intro c hc
  rcases List.mem_cons.1 hc with rfl | hc
  · rfl
  · rcases List.mem_append.1 hc with hc | hc
    · exact (h c hc).1
    · rcases List.mem_cons.1 hc with rfl | hc
      · rfl
      · have hdigit := isDigit_of_mem_digits hc
        rw [inAuthority]
        simp only [ne_eq, Bool.and_eq_true, decide_eq_true_eq]
        refine ⟨⟨?_, ?_⟩, ?_⟩ <;> rintro rfl <;> exact absurd hdigit (by decide)

theorem at_not_mem_place (h : HostName host) (port : Nat) :
    '@' ∉ host.toList ++ ':' :: digits port := by
  intro hat
  rcases List.mem_append.1 hat with hat | hat
  · exact (h _ hat).2 rfl
  · rcases List.mem_cons.1 hat with hat | hat
    · cases hat
    · exact absurd (isDigit_of_mem_digits hat) (by decide)

/-- If nothing in the credentials ends the authority, each part is read from where it was put. -/
theorem ofRest?_of_inAuthority (h : HostName host)
    (hw : ∀ c ∈ written username password, inAuthority c = true) :
    ofRest? (rest username password host port database) = (do
      let (name, word) ← credentials? (written username password)
      let path ← Percent.decode? (database.toList.takeWhile inPath)
      return ⟨name, word, host, some port, path⟩) := by
  have hauthority : ∀ c ∈ written username password ++ '@' :: (host.toList ++ ':' :: digits port),
      inAuthority c = true := by
    intro c hc
    rcases List.mem_append.1 hc with hc | hc
    · exact hw c hc
    · exact inAuthority_place h port c hc
  have hparts : userinfoAndPlace (written username password ++
      '@' :: (host.toList ++ ':' :: digits port)) =
        (written username password, host.toList ++ ':' :: digits port) := by
    rw [userinfoAndPlace, lastIndex?_append_cons _ (at_not_mem_place h port)]
    simp only [List.take_left, ← List.drop_drop, List.drop_left, List.drop_one, List.tail_cons]
  have htake : (rest username password host port database).takeWhile inAuthority =
      written username password ++ '@' :: (host.toList ++ ':' :: digits port) := by
    rw [rest, List.takeWhile_append_of_pos hauthority]
    exact List.append_nil _
  have hdrop : (rest username password host port database).dropWhile inAuthority =
      '/' :: database.toList := by
    rw [rest, List.dropWhile_append_of_pos hauthority]
    rfl
  have hpath : (('/' :: database.toList).takeWhile inPath).drop 1 =
      database.toList.takeWhile inPath := rfl
  rw [ofRest?, htake, hdrop, hparts]
  simp only [place?_eq, hpath]
  rfl

/-- The credentials of a URI are read from its authority. -/
theorem exists_of_ofRest? {cs : List Char} {t : Target} (h : ofRest? cs = some t) :
    ∃ userinfo, Percent.size userinfo ≤ Percent.size (cs.takeWhile inAuthority) ∧
      credentials? userinfo = some (t.username, t.password) := by
  have hle : ∀ authority, Percent.size (userinfoAndPlace authority).1 ≤ Percent.size authority := by
    intro authority
    unfold userinfoAndPlace
    split
    next i _ =>
      conv_rhs => rw [← List.take_append_drop i authority]
      rw [Percent.size_append]
      exact Nat.le_add_right _ _
    next => exact Nat.zero_le _
  refine ⟨_, hle _, ?_⟩
  obtain ⟨⟨name, word⟩, hcredentials, h⟩ := Option.bind_eq_some_iff.1 h
  obtain ⟨⟨host', port'⟩, -, h⟩ := Option.bind_eq_some_iff.1 h
  obtain ⟨path, -, h⟩ := Option.bind_eq_some_iff.1 h
  cases h
  exact hcredentials

/-- What comes after the scheme is read back if the credentials do not end the authority, and they
and the name of the database are read back by themselves. -/
theorem ofRest?_iff (h : HostName host) :
    ofRest? (rest username password host port database) =
        some ⟨username, password, host, some port, database⟩ ↔
      (∀ c ∈ written username password, inAuthority c = true) ∧
        credentials? (written username password) = some (username, password) ∧
        Percent.decode? (database.toList.takeWhile inPath) = some database := by
  constructor
  · intro hread
    have hw : ∀ c ∈ written username password, inAuthority c = true := by
      by_contra hnot
      push Not at hnot
      obtain ⟨c, hc, hend⟩ := hnot
      have hlt := Percent.size_takeWhile_lt ⟨c, hc, Bool.eq_false_iff.2 hend⟩
      -- The authority ends inside the credentials, which leaves too little to read them from.
      have hauthority : (rest username password host port database).takeWhile inAuthority =
          (written username password).takeWhile inAuthority := by
        rw [rest, List.append_assoc, List.takeWhile_append, if_neg]
        intro hlength
        have hall := List.IsPrefix.eq_of_length ( List.takeWhile_prefix _) hlength
        rw [hall] at hlt
        exact Nat.lt_irrefl _ hlt
      obtain ⟨userinfo, hle, hcredentials⟩ := exists_of_ofRest? hread
      rw [hauthority] at hle
      have hsize := size_le_of_credentials? hcredentials
      exact absurd (hsize.trans hle) (Nat.not_le.2 hlt)
    rw [ofRest?_of_inAuthority h hw] at hread
    obtain ⟨⟨name, word⟩, hcredentials, hread⟩ := Option.bind_eq_some_iff.1 hread
    obtain ⟨path, hpath, hread⟩ := Option.bind_eq_some_iff.1 hread
    cases hread
    exact ⟨hw, hcredentials, hpath⟩
  · rintro ⟨hw, hcredentials, hpath⟩
    rw [ofRest?_of_inAuthority h hw, hcredentials, hpath]
    rfl

end Rest

end Target

/-- What is in the parts of a connection string is read as it is: nothing in them ends a part, and
nothing is an escape. -/
structure Plain (d : Database) (env : Environment) : Prop where
  username : (∀ c ∈ d.username.toList, c ≠ ':' ∧ inAuthority c = true) ∧
    Percent.hasEscape d.username.toList = false
  password : ∀ p, d.effectivePassword env = some p →
    (∀ c ∈ p.toList, inAuthority c = true) ∧ Percent.hasEscape p.toList = false
  database : (∀ c ∈ d.database.toList, inPath c = true) ∧
    Percent.hasEscape d.database.toList = false

section Strings

variable {d : Database} {env : Environment}

theorem forall_written_iff {username : String} {password : Option String} :
    (∀ c ∈ written username password, inAuthority c = true) ↔
      (∀ c ∈ username.toList, inAuthority c = true) ∧
        ∀ p, password = some p → ∀ c ∈ p.toList, inAuthority c = true := by
  rw [written, List.forall_mem_append]
  refine and_congr_right' ?_
  cases password with
  | none => simp
  | some p =>
      rw [Option.elim_some, List.forall_mem_cons]
      constructor
      · rintro ⟨-, hp⟩ _ ⟨⟩
        exact hp
      · exact fun h => ⟨rfl, h p rfl⟩

/-- Parts are plain if the credentials do not end the authority, and they and the name of the
database are read back by themselves. -/
theorem plain_iff : d.Plain env ↔
    (∀ c ∈ written d.username (d.effectivePassword env), inAuthority c = true) ∧
      credentials? (written d.username (d.effectivePassword env)) =
        some (d.username, d.effectivePassword env) ∧
      Percent.decode? (d.database.toList.takeWhile inPath) = some d.database := by
  rw [forall_written_iff, credentials?_written_iff, Percent.decode?_takeWhile_iff]
  constructor
  · intro h
    exact ⟨⟨fun c hc => (h.username.1 c hc).2, fun p hp => (h.password p hp).1⟩,
      ⟨⟨fun c hc => (h.username.1 c hc).1, h.username.2⟩, fun p hp => (h.password p hp).2⟩,
      h.database⟩
  · rintro ⟨⟨hname, hword⟩, ⟨⟨hcolon, hescape⟩, hplain⟩, hdatabase⟩
    exact ⟨⟨fun c hc => ⟨hcolon c hc, hname c hc⟩, hescape⟩,
      fun p hp => ⟨hword p hp, hplain p hp⟩, hdatabase⟩

theorem toList_connectionString (h : d.givenUrl env = none) :
    (d.connectionString env).toList = "postgresql://".toList ++
      Target.rest d.username (d.effectivePassword env) d.host d.port d.database := by
  rw [givenUrl] at h
  rw [connectionString, h]
  dsimp only
  cases d.effectivePassword env <;> simp [Target.rest, written, digits]

/-- What a connection string says is what comes after its scheme. -/
theorem ofUri?_connectionString (h : d.givenUrl env = none) :
    Target.ofUri? (d.connectionString env) = Target.ofRest?
      (Target.rest d.username (d.effectivePassword env) d.host d.port d.database) := by
  have hscheme : find? "://".toList "postgresql://".toList = some 10 := by decide
  have hdrop : ∀ rest, ("postgresql://".toList ++ rest).drop (10 + 3) = rest :=
    fun rest => List.drop_left' (by decide)
  rw [Target.ofUri?, toList_connectionString h, find?_append hscheme]
  simp only [Option.bind_eq_bind, Option.bind_some, hdrop]

end Strings

/-- A connection string that is made of the fields of a database, with the name of a host, is read
back as just these fields if its parts are plain, and only then: there is no colon in the user name,
no slash, question mark or number sign in the user name and in the password, no question mark or
number sign in the name of the database, and no escape in any of them. So databases with plain parts
that have one connection string are one target. -/
theorem connectionString_read_iff (d : Database) (env : Environment)
    (h : d.givenUrl env = none) (hhost : HostName d.host) :
    (Target.ofUri? (d.connectionString env) = some (d.target env) ↔ d.Plain env) ∧
    (d.Plain env → ∀ (d' : Database) (env' : Environment), d'.givenUrl env' = none →
      HostName d'.host → d'.Plain env' → d.connectionString env = d'.connectionString env' →
      d.target env = d'.target env') := by
  have hiff : ∀ {d : Database} {env : Environment}, d.givenUrl env = none → HostName d.host →
      (Target.ofUri? (d.connectionString env) = some (d.target env) ↔ d.Plain env) := by
    intro d env h hhost
    rw [ofUri?_connectionString h, plain_iff]
    exact Target.ofRest?_iff hhost
  refine ⟨hiff h hhost, fun hplain d' env' h' hhost' hplain' heq => ?_⟩
  have hread := (hiff h hhost).2 hplain
  rw [heq, (hiff h' hhost').2 hplain'] at hread
  exact (Option.some.inj hread).symm

/-- A password may have at signs and colons in it. -/
theorem connectionString_read_iff_colon :
    let d := { initial with username := "user", password := some "p@ss:word", database := "mydb" }
    let env : Environment := fun _ => none
    d.givenUrl env = none ∧ HostName d.host ∧ d.Plain env ∧
      d.connectionString env = "postgresql://user:p@ss:word@localhost:5432/mydb" ∧
      Target.ofUri? (d.connectionString env) =
        some ⟨"user", some "p@ss:word", "localhost", some 5432, "mydb"⟩ := by
  intro d env
  have hhost : HostName d.host := by decide
  have hplain : d.Plain env := by
    refine ⟨⟨?_, ?_⟩, fun p hp => ?_, ?_, ?_⟩
    · simp [d, inAuthority]
    · decide +kernel
    · obtain rfl := Option.some.inj hp
      exact ⟨by simp [inAuthority], by decide +kernel⟩
    · simp [d, inPath]
    · decide +kernel
  have hread := (connectionString_read_iff d env rfl hhost).1.2 hplain
  have htarget : d.target env = ⟨"user", some "p@ss:word", "localhost", some 5432, "mydb"⟩ := rfl
  refine ⟨rfl, hhost, hplain, ?_, htarget ▸ hread⟩
  decide +kernel

/-- A slash in a password ends the authority. What is before it may be no authority at all, or it may
be that of another host, to which the credentials go. And a colon may belong to the user name or
begin the password. -/
theorem connectionString_misleads :
    let env : Environment := fun _ => none
    let d (username : String) (password : Option String) : Database :=
      { initial with username, password, database := "mydb" }
    (d "user" (some "a/b")).connectionString env = "postgresql://user:a/b@localhost:5432/mydb" ∧
    Target.ofUri? ((d "user" (some "a/b")).connectionString env) = none ∧
    Target.ofUri? ((d "user" (some "p@other:1/")).connectionString env) =
      some ⟨"user", some "p", "other", some 1, "@localhost:5432/mydb"⟩ ∧
    (d "a:b" none).connectionString env = (d "a" (some "b")).connectionString env ∧
    (d "a:b" none).target env ≠ (d "a" (some "b")).target env := by
  intro env d
  refine ⟨?_, ?_, ?_, ?_, ?_⟩
  · decide +kernel
  · decide +kernel
  · decide +kernel
  · decide +kernel
  · decide +kernel

end Config.Database

end SqlGate
