import Kerberos.Spec.Policy

/-!
# The KDC's replay table

`Server.replayed`: the table maps the identity of an authenticator to the instant
its entry expires. A call drops the expired entries, reports a live one, and
otherwise stores the new entry, evicting the entry that expires first when the
table is full.
-/

namespace Kerberos

/-- `Server.replays`. -/
abbrev ReplayTable := GoMap Bytes ℤ

def maxReplayEntries : ℕ := 10000

/-- Decimal digits, as `fmt` prints an unsigned number. -/
def decimal (n : ℕ) : Bytes := str (toString n)

/-- `fmt.Sprint` of an integer. -/
def decimalInt (n : ℤ) : Bytes := str (toString n)

/-- `n` in `width` digits. -/
def padded (width n : ℕ) : Bytes :=
  let digits := decimal n
  List.replicate (width - digits.length) 48 ++ digits

/-- The year, month and day of a day counted from the Unix epoch, in the proleptic
Gregorian calendar: eras of 400 years that start on the first of March. -/
def civil (days : ℤ) : ℤ × ℕ × ℕ :=
  let z := days + 719468
  let era := z / 146097
  let doe := (z % 146097).toNat
  let yoe := (doe - doe / 1460 + doe / 36524 - doe / 146096) / 365
  let doy := doe - (365 * yoe + yoe / 4 - yoe / 100)
  let mp := (5 * doy + 2) / 153
  let day := doy - (153 * mp + 2) / 5 + 1
  let month := if mp < 10 then mp + 3 else mp - 9
  ((yoe : ℤ) + era * 400 + (if month ≤ 2 then 1 else 0), month, day)

/-- The fraction of `Format(time.RFC3339Nano)`: nanoseconds without trailing zeros. -/
def fraction (nanoseconds : ℕ) : Bytes :=
  let digits := ((padded 9 nanoseconds).reverse.dropWhile (· = 48)).reverse
  if digits = [] then [] else str "." ++ digits

/-- `t.UTC().Format(time.RFC3339Nano)`. -/
def rfc3339Nano (t : ℤ) : Bytes :=
  let seconds := t / second
  let ofDay := (seconds % 86400).toNat
  let (year, month, day) := civil (seconds / 86400)
  let sign := if year < 0 then str "-" else []
  sign ++ padded 4 year.natAbs ++ str "-" ++ padded 2 month ++ str "-" ++ padded 2 day ++ str "T" ++
    padded 2 (ofDay / 3600) ++ str ":" ++ padded 2 (ofDay / 60 % 60) ++ str ":" ++
    padded 2 (ofDay % 60) ++ fraction (t % second).toNat ++ str "Z"

example : rfc3339Nano (951827696 * second + 500000000) = str "2000-02-29T12:34:56.5Z" := by decide

def hexDigit (n : ℕ) : UInt8 := UInt8.ofNat (if n < 10 then 48 + n else 87 + n)

/-- `hex.EncodeToString`. -/
def hexEncode (data : Bytes) : Bytes :=
  data.flatMap fun b => [hexDigit (b.toNat / 16), hexDigit (b.toNat % 16)]

/-- The table key of an authenticator: client, microseconds, time and checksum. -/
def replayKey (realm : Bytes) (name : PrincipalName) (authenticator : Authenticator) : Bytes :=
  [(0 : UInt8)].intercalate
    ([realm, decimalInt name.nameType.toInt, decimalInt authenticator.cusec.toInt,
      rfc3339Nano authenticator.ctime.time,
      hexEncode (authenticator.checksum.elim [] (·.checksum))] ++ name.nameString)

/-- The entries that have not expired at `now`. -/
def liveEntries (now : ℤ) (table : ReplayTable) : ReplayTable :=
  GoMap.keep (fun _ expiry => decide (now < expiry)) table

/-- The first key of `keys` whose entry expires earliest. -/
def oldestKey (table : ReplayTable) (keys : List Bytes) : Option Bytes :=
  keys.foldl (fun oldest key =>
    match oldest, table.lookup key with
    | none, _ => some key
    | some k, some expiry =>
      if (table.lookup k).any fun e => decide (expiry < e) then some key else oldest
    | some _, none => oldest) none

/-- Make room in a full table. -/
def evict (order : List Bytes → List Bytes) (table : ReplayTable) : ReplayTable :=
  if maxReplayEntries ≤ table.entries.length then
    match oldestKey table (order table.keys) with
    | some key => table.erase key
    | none => table
  else table

/-- `Server.replayed` on the key of an authenticator: the verdict and the table. -/
def replayed (order : List Bytes → List Bytes) (skew now : ℤ) (key : Bytes) (table : ReplayTable) :
    Bool × ReplayTable :=
  let live := liveEntries now table
  if (live.lookup key).any fun expiry => decide (now < expiry) then (true, live)
  else (false, (evict order live).insert key (now + skew))

end Kerberos
