import Dbx.Lexing.Stepper

/-!
# The safety of Redis commands

The desktop shows the safety class of a command line before it is sent, and the driver has a class
for the command that it sends. Both read the first word of the line, each with a reader of its own:
the driver follows quotes, escapes and adjacent pieces, the desktop reads one quoted piece or one
plain word.

`MONITOR` alone on a line is not sent as a command: the desktop opens a stream for it, and shows it
as allowed.

## Main results

* `firstArgument_eq`: the driver sends the word that the desktop reads
* `shownAsStrict_of_readAlike`: the class that is shown is at least as strict as that of the command
  sent
-/

namespace Dbx.Redis

open Text List

/-- `RedisCommandSafety`. -/
inductive RedisCommandSafety
  | allowed
  | write
  | confirm
  | blocked
  deriving DecidableEq, Repr

/-- How strict a class is. -/
def RedisCommandSafety.rank : RedisCommandSafety → Nat
  | .allowed => 0
  | .write => 1
  | .confirm => 2
  | .blocked => 3

/-! ## The desktop -/

/-- `BLOCKED_COMMANDS`. -/
def blockedCommands : List String :=
  ["KEYS", "FLUSHALL", "FLUSHDB", "SHUTDOWN", "CONFIG", "SAVE", "BGSAVE", "SLAVEOF", "REPLICAOF",
    "MIGRATE", "MODULE", "SCRIPT", "EVAL", "EVALSHA"]

/-- `ALLOWED_COMMANDS`. -/
def allowedCommands : List String :=
  ["GET", "MGET", "GETRANGE", "GETBIT", "GETSET", "GETDEL", "GETEX", "HEXISTS", "HGET", "HGETALL",
    "HKEYS", "HLEN", "HMGET", "HRANDFIELD", "HSCAN", "HSTRLEN", "HPTTL", "HTTL", "HVALS", "LINDEX",
    "LLEN", "LPOS", "LRANGE", "SCARD", "SDIFF", "SINTER", "SINTERCARD", "SISMEMBER", "SMEMBERS",
    "SMISMEMBER", "SRANDMEMBER", "SSCAN", "STRLEN", "SUBSTR", "TYPE", "EXISTS", "TTL", "PTTL",
    "OBJECT", "ZCARD", "ZCOUNT", "ZDIFF", "ZINTER", "ZINTERCARD", "ZLEXCOUNT", "ZMSCORE",
    "ZRANDMEMBER", "ZRANGE", "ZRANGEBYLEX", "ZRANGEBYSCORE", "ZRANK", "ZREVRANGE",
    "ZREVRANGEBYLEX", "ZREVRANGEBYSCORE", "ZREVRANK", "ZSCAN", "ZSCORE", "ZUNION", "XINFO", "XLEN",
    "XPENDING", "XRANGE", "XREVRANGE", "XREAD", "PFCOUNT", "GEOHASH", "GEOPOS", "GEODIST",
    "GEOSEARCH", "GEORADIUS_RO", "GEORADIUSBYMEMBER_RO", "DBSIZE", "LASTSAVE", "TIME", "PING",
    "ECHO", "WAIT", "WAITAOF", "ROLE", "COMMAND", "INFO", "SLOWLOG", "SCAN", "RANDOMKEY",
    "JSON.GET", "JSON.MGET", "JSON.OBJKEYS", "JSON.OBJLEN", "JSON.STRLEN", "JSON.TYPE",
    "JSON.ARRINDEX", "JSON.ARRLEN", "JSON.RESP", "FT.INFO", "FT.SEARCH", "FT.AGGREGATE",
    "FT.SPELLCHECK", "FT.SYNDUMP", "FT.TAGVALS", "FT.DICTDUMP", "FT.EXPLAIN", "FT.EXPLAINCLI",
    "FT.PROFILE", "BF.EXISTS", "BF.INFO", "BF.CARD", "BF.MEXISTS", "CF.EXISTS", "CF.INFO",
    "CF.COUNT", "CF.MEXISTS", "CMS.INFO", "CMS.QUERY", "TS.GET", "TS.INFO", "TS.MGET", "TS.MRANGE",
    "TS.QUERYINDEX", "TS.RANGE", "TDIGEST.BYRANK", "TDIGEST.BYREVRANK", "TDIGEST.CDF",
    "TDIGEST.INFO", "TDIGEST.MAX", "TDIGEST.MIN", "TDIGEST.QUANTILE", "TDIGEST.RANK",
    "TDIGEST.REVRANK", "TDIGEST.TRIMMED_MEAN", "TOPK.INFO", "TOPK.LIST", "TOPK.QUERY"]

/-- `CONFIRM_COMMANDS`. -/
def confirmCommands : List String :=
  ["DEL", "UNLINK", "EXPIRE", "EXPIREAT", "PEXPIRE", "PEXPIREAT", "RENAME", "RENAMENX", "GETDEL",
    "HDEL", "HEXPIRE", "HEXPIREAT", "HPEXPIRE", "HPEXPIREAT", "HPERSIST", "JSON.ARRPOP",
    "JSON.ARRTRIM", "JSON.CLEAR", "JSON.DEL", "JSON.FORGET", "BLMOVE", "BLMPOP", "BLPOP", "BRPOP",
    "BRPOPLPUSH", "LPOP", "LMOVE", "LMPOP", "RPOP", "RPOPLPUSH", "LREM", "LTRIM", "SPOP", "SREM",
    "ZREM", "ZPOPMAX", "ZPOPMIN", "ZMPOP", "BZMPOP", "BZPOPMAX", "BZPOPMIN", "ZREMRANGEBYLEX",
    "ZREMRANGEBYRANK", "ZREMRANGEBYSCORE", "XDEL", "XTRIM", "MOVE", "SORT", "SDIFFSTORE",
    "SINTERSTORE", "SUNIONSTORE", "ZDIFFSTORE", "ZINTERSTORE", "ZRANGESTORE", "ZUNIONSTORE",
    "PFMERGE", "GEOSEARCHSTORE"]

/-- `WRITE_COMMANDS`. -/
def writeCommands : List String :=
  ["APPEND", "BITFIELD", "BITOP", "COPY", "DECR", "DECRBY", "GEOADD", "GEORADIUS",
    "GEORADIUSBYMEMBER", "GETSET", "INCR", "INCRBY", "INCRBYFLOAT", "SET", "SETEX", "PSETEX",
    "SETNX", "SETRANGE", "MSET", "MSETNX", "PERSIST", "HSET", "HMSET", "HINCRBY", "HINCRBYFLOAT",
    "HSETNX", "LINSERT", "LSET", "LMOVE", "LPUSH", "LPUSHX", "PFADD", "RPUSH", "RPUSHX", "RESTORE",
    "SADD", "ZADD", "ZINCRBY", "SETBIT", "XADD", "XACK", "XAUTOCLAIM", "XCLAIM", "XSETID"]

def isIn (table : List String) (token : Text) : Bool := table.any fun name => name.toList = token

/-- `trimStart` of JavaScript. -/
def jsTrimStart (text : Text) : Text := text.dropWhile isJsSpace

/-- `trim` of JavaScript. -/
def jsTrim (text : Text) : Text := trimEndMatches isJsSpace (jsTrimStart text)

/-- `isRedisMonitorCommand`. -/
def isRedisMonitorCommand (command : Text) : Bool :=
  let trimmed := jsTrim command
  let rest := (trimmed.drop 7).dropWhile isJsSpace
  eqIgnoreAsciiCase (trimmed.take 7) "MONITOR".toList && (rest = [] || rest = [';'])

/-- The quote that a text starts with. -/
def openingQuote : Text → Option Char
  | c :: _ => if c = '"' || c = '\'' then some c else none
  | [] => none

/-- The loop of `firstRedisCommandToken`: the token, and the text behind it. -/
def tokenFrom (quote : Option Char) : Bool → Text → Text × Text
  | _, [] => ([], [])
  | true, c :: rest =>
    let token := tokenFrom quote false rest
    (c :: token.1, token.2)
  | false, c :: rest =>
    if c = '\\' then tokenFrom quote true rest
    else if quote = some c then ([], rest)
    else if quote = none && isJsSpace c then ([], c :: rest)
    else
      let token := tokenFrom quote false rest
      (c :: token.1, token.2)

/-- A text behind the quote that it starts with, if it does. -/
def afterQuote (text : Text) : Text := if (openingQuote text).isSome then text.drop 1 else text

/-- The first word of a command line as the desktop reads it, and the text behind it. -/
def firstWord (command : Text) : Text × Text :=
  let trimmed := jsTrimStart command
  tokenFrom (openingQuote trimmed) false (afterQuote trimmed)

variable (toUpperCase : Text → Text)

/-- `firstRedisCommandToken`. -/
def firstRedisCommandToken (command : Text) : Text := toUpperCase (firstWord command).1

/-- The class of a token. -/
def classifyToken (token : Text) : RedisCommandSafety :=
  if isIn blockedCommands token then .blocked
  else if isIn confirmCommands token then .confirm
  else if isIn writeCommands token then .write
  else if isIn allowedCommands token then .allowed
  else .blocked

/-- `classifyRedisCommandSafety`. -/
def classifyRedisCommandSafety (command : Text) : RedisCommandSafety :=
  if isRedisMonitorCommand command then .allowed
  else classifyToken (firstRedisCommandToken toUpperCase command)

/-! ## The driver -/

/-- Where the loop of `parse_command_argv` stands. -/
structure ArgvState where
  current : List UInt8 := []
  quote : Option Char := none
  escaping : Bool := false
  tokenStarted : Bool := false
  deriving DecidableEq, Repr

def hexValue (c : Char) : Nat :=
  if c.isDigit then c.toNat - '0'.toNat else c.toLower.toNat - 'a'.toNat + 10

/-- The byte of an escape, and otherwise the bytes of the character. -/
def escapedBytes : Char → List UInt8
  | 'n' => [10]
  | 'r' => [13]
  | 't' => [9]
  | 'a' => [7]
  | 'b' => [8]
  | 'f' => [12]
  | 'v' => [11]
  | c => String.utf8EncodeChar c

/-- The bytes of an escape, and how many characters behind it belong to it. -/
def readEscape (c : Char) (rest : Text) : List UInt8 × Nat :=
  if c = 'x' then
    match rest with
    | high :: low :: _ =>
      if isHexDigit high && isHexDigit low then
        ([UInt8.ofNat (hexValue high * 16 + hexValue low)], 2)
      else ([120], if isHexDigit high then 1 else 0)
    | [high] => ([120], if isHexDigit high then 1 else 0)
    | [] => ([120], 0)
  else (escapedBytes c, 0)

def ArgvState.push (s : ArgvState) (bytes : List UInt8) : ArgvState :=
  { s with current := s.current ++ bytes, escaping := false, tokenStarted := true }

/-- The body of the loop of `parse_command_argv`. -/
def argvStep (s : ArgvState) (c : Char) (rest : Text) : ArgvState × Nat × List (List UInt8) :=
  if s.escaping then (s.push (readEscape c rest).1, (readEscape c rest).2, [])
  else if c = '\\' then ({ s with escaping := true, tokenStarted := true }, 0, [])
  else
    match s.quote with
    | some quote =>
      if c = quote then ({ s with quote := none }, 0, [])
      else ({ s with current := s.current ++ String.utf8EncodeChar c }, 0, [])
    | none =>
      if c = '"' || c = '\'' then ({ s with quote := some c, tokenStarted := true }, 0, [])
      else if isWhitespace c then
        ({ s with current := if s.tokenStarted then [] else s.current, tokenStarted := false },
          (rest.takeWhile isWhitespace).length, if s.tokenStarted then [s.current] else [])
      else (s.push (String.utf8EncodeChar c), 0, [])

def argvReader : Stepper ArgvState (List UInt8) where
  step := argvStep

theorem argvReader_step : argvReader.step = argvStep := rfl

/-- The text that `parse_command_argv` reads. -/
def stripCommand (command : Text) : Text := trimEndMatches (· = ';') (trimEnd command)

/-- The arguments at the end of the text: the last token is one of them. -/
def ArgvState.arguments (s : ArgvState) (argv : List (List UInt8)) : List (List UInt8) :=
  let current := if s.escaping then s.current ++ [92] else s.current
  if s.tokenStarted then argv ++ [current] else argv

/-- `parse_command_argv`. -/
def parseCommandArgv (command : Text) : Except String (List (List UInt8)) :=
  let final := argvReader.run 0 {} (stripCommand command)
  let argv := final.1.arguments final.2
  if final.1.quote.isSome then .error "Redis command has an unterminated quote"
  else if argv.head?.all isEmpty then .error "Redis command is empty"
  else .ok argv

/-- The commands that `classify_command` allows. -/
def driverAllowedCommands : List String :=
  ["BITCOUNT", "BITFIELD_RO", "BITPOS", "COMMAND", "DBSIZE", "DUMP", "ECHO", "EXISTS",
    "EXPIRETIME", "GEODIST", "GEOHASH", "GEOPOS", "GEORADIUS_RO", "GEORADIUSBYMEMBER_RO",
    "GEOSEARCH", "GET", "GETBIT", "GETRANGE", "HEXISTS", "HGET", "HGETALL", "HKEYS", "HLEN",
    "HMGET", "HRANDFIELD", "HSCAN", "HSTRLEN", "HPTTL", "HTTL", "HVALS", "INFO", "LASTSAVE", "LCS",
    "LINDEX", "LLEN", "LPOS", "LRANGE", "MGET", "OBJECT", "PEXPIRETIME", "PFCOUNT", "PING", "PTTL",
    "PUBSUB", "RANDOMKEY", "ROLE", "SCAN", "SCARD", "SDIFF", "SINTER", "SINTERCARD", "SISMEMBER",
    "SMEMBERS", "SMISMEMBER", "SORT_RO", "SRANDMEMBER", "SSCAN", "STRLEN", "SUNION", "TIME", "TTL",
    "TYPE", "WAIT", "WAITAOF", "XINFO", "XLEN", "XPENDING", "XRANGE", "XREAD", "XREVRANGE",
    "ZCARD", "ZCOUNT", "ZDIFF", "ZINTER", "ZINTERCARD", "ZLEXCOUNT", "ZMSCORE", "ZRANDMEMBER",
    "ZRANGE", "ZRANGEBYLEX", "ZRANGEBYSCORE", "ZRANK", "ZREVRANGE", "ZREVRANGEBYLEX",
    "ZREVRANGEBYSCORE", "ZREVRANK", "ZSCAN", "ZSCORE", "ZUNION", "BF.CARD", "BF.EXISTS", "BF.INFO",
    "BF.MEXISTS", "CF.COUNT", "CF.EXISTS", "CF.INFO", "CF.MEXISTS", "CMS.INFO", "CMS.QUERY",
    "FT._LIST", "FT.AGGREGATE", "FT.DICTDUMP", "FT.EXPLAIN", "FT.EXPLAINCLI", "FT.INFO",
    "FT.PROFILE", "FT.SEARCH", "FT.SPELLCHECK", "FT.SYNDUMP", "FT.TAGVALS", "GRAPH.RO_QUERY",
    "JSON.ARRINDEX", "JSON.ARRLEN", "JSON.GET", "JSON.MGET", "JSON.OBJKEYS", "JSON.OBJLEN",
    "JSON.RESP", "JSON.STRLEN", "JSON.TYPE", "TDIGEST.BYRANK", "TDIGEST.BYREVRANK", "TDIGEST.CDF",
    "TDIGEST.INFO", "TDIGEST.MAX", "TDIGEST.MIN", "TDIGEST.QUANTILE", "TDIGEST.RANK",
    "TDIGEST.REVRANK", "TDIGEST.TRIMMED_MEAN", "TOPK.INFO", "TOPK.LIST", "TOPK.QUERY", "TS.GET",
    "TS.INFO", "TS.MGET", "TS.MRANGE", "TS.QUERYINDEX", "TS.RANGE"]

/-- The commands that `classify_command` wants confirmed. -/
def driverConfirmCommands : List String :=
  ["DEL", "UNLINK", "EXPIRE", "EXPIREAT", "PEXPIRE", "PEXPIREAT", "RENAME", "RENAMENX", "GETDEL",
    "HDEL", "HEXPIRE", "HEXPIREAT", "HPEXPIRE", "HPEXPIREAT", "HPERSIST", "JSON.ARRPOP",
    "JSON.ARRTRIM", "JSON.CLEAR", "JSON.DEL", "JSON.FORGET", "BLMOVE", "BLMPOP", "BLPOP", "BRPOP",
    "BRPOPLPUSH", "LPOP", "LMOVE", "LMPOP", "RPOP", "RPOPLPUSH", "LREM", "LTRIM", "SPOP", "SREM",
    "ZREM", "ZPOPMAX", "ZPOPMIN", "ZMPOP", "BZMPOP", "BZPOPMAX", "BZPOPMIN", "ZREMRANGEBYLEX",
    "ZREMRANGEBYRANK", "ZREMRANGEBYSCORE", "XDEL", "XTRIM", "MOVE", "SORT", "SDIFFSTORE",
    "SINTERSTORE", "SUNIONSTORE", "ZDIFFSTORE", "ZINTERSTORE", "ZRANGESTORE", "ZUNIONSTORE",
    "PFMERGE", "GEOSEARCHSTORE"]

/-- The commands that `classify_command` takes for writes. -/
def driverWriteCommands : List String :=
  ["APPEND", "BITFIELD", "BITOP", "COPY", "DECR", "DECRBY", "GEOADD", "GEORADIUS",
    "GEORADIUSBYMEMBER", "GETEX", "GETSET", "INCR", "INCRBY", "INCRBYFLOAT", "SET", "SETEX",
    "PSETEX", "SETNX", "SETRANGE", "MSET", "MSETNX", "PERSIST", "HSET", "HMSET", "HINCRBY",
    "HINCRBYFLOAT", "HSETNX", "JSON.ARRAPPEND", "JSON.ARRINSERT", "JSON.MERGE", "JSON.MSET",
    "JSON.NUMINCRBY", "JSON.NUMMULTBY", "JSON.SET", "JSON.STRAPPEND", "JSON.TOGGLE", "LINSERT",
    "LSET", "LPUSH", "LPUSHX", "PFADD", "RPUSH", "RPUSHX", "RESTORE", "SADD", "ZADD", "ZINCRBY",
    "SETBIT", "SPUBLISH", "PUBLISH", "TOUCH", "XADD", "XACK", "XAUTOCLAIM", "XCLAIM", "XREADGROUP",
    "XSETID"]

/-- The class of a name in upper case. -/
def classifyName (name : Text) : RedisCommandSafety :=
  if isIn driverAllowedCommands name then .allowed
  else if isIn driverConfirmCommands name then .confirm
  else if isIn driverWriteCommands name then .write
  else .blocked

/-- `classify_command`. -/
def classifyCommand (command : Text) : RedisCommandSafety := classifyName (toAsciiUppercase command)

/-- The name of the command in the first argument, as far as the tables can tell: they hold ASCII
names only, and bytes that are no ASCII text are not decoded to one. -/
def commandName (argument : List UInt8) : Text := argument.map fun byte => Char.ofNat byte.toNat

/-- The class that the desktop shows is at least as strict as that of the command that is sent. -/
def ShownAsStrict (command : Text) : Prop :=
  ∀ first rest, parseCommandArgv command = .ok (first :: rest) →
    (classifyCommand (commandName first)).rank ≤
      (classifyRedisCommandSafety toUpperCase command).rank

/-! ## Words that both read alike -/

/-- A backslash before the character stands for the character in both readers. -/
def standsForItself (c : Char) : Bool := c ∉ ['n', 'r', 't', 'a', 'b', 'f', 'v', 'x']

/-- No escape of the first word is read differently, and none is left open. -/
def escapesAlike (quote : Option Char) : Bool → Text → Bool
  | escaping, [] => !escaping
  | true, c :: rest => standsForItself c && escapesAlike quote false rest
  | false, c :: rest =>
    if c = '\\' then escapesAlike quote true rest
    else if quote = some c then true
    else if quote = none && isJsSpace c then true
    else escapesAlike quote false rest

/-- The first word is plain ASCII, and written so that both readers find its start, its characters
and its end at the same places. -/
structure ReadAlike (command : Text) : Prop where
  ascii : ∀ c ∈ (firstWord command).1, c.toNat < 128
  start : ∀ c ∈ command.takeWhile isJsSpace, isWhitespace c
  escapes :
    escapesAlike (openingQuote (jsTrimStart command)) false (afterQuote (jsTrimStart command))
  stop : ∀ c ∈ (stripCommand (firstWord command).2).head?, isWhitespace c

/-- How a token is written in a word: a character stands for itself, or behind a backslash. -/
inductive Written (quote : Option Char) : Text → Text → Prop
  | nil : Written quote [] []
  | plain {c : Char} {raw token : Text} (hslash : c ≠ '\\') (hquote : quote ≠ some c)
      (hrest : Written quote raw token) : Written quote (c :: raw) (c :: token)
  | escaped {c : Char} {raw token : Text} (hself : standsForItself c)
      (hrest : Written quote raw token) : Written quote ('\\' :: c :: raw) (c :: token)

/-- The backslash that is read already when the loop is escaping. -/
def openSlash (escaping : Bool) : Text := if escaping then ['\\'] else []

variable {quote : Option Char} {text : Text}

/-- The desktop reads up to the end of the text, to the closing quote or to a blank. -/
theorem tokenFrom_spec {escaping : Bool} (halike : escapesAlike quote escaping text) :
    ∃ raw, Written quote (openSlash escaping ++ raw) (tokenFrom quote escaping text).1 ∧
      (text = raw ∧ (tokenFrom quote escaping text).2 = [] ∨
        (∃ q, quote = some q ∧ text = raw ++ q :: (tokenFrom quote escaping text).2) ∨
        (quote = none ∧ text = raw ++ (tokenFrom quote escaping text).2)) := by
  induction text generalizing escaping with
  | nil =>
    cases escaping with
    | true => simp [escapesAlike] at halike
    | false => exact ⟨[], .nil, .inl ⟨rfl, rfl⟩⟩
  | cons c rest ih =>
    cases escaping with
    | true =>
      rw [escapesAlike, Bool.and_eq_true] at halike
      obtain ⟨raw, hwritten, hend⟩ := ih halike.2
      refine ⟨c :: raw, .escaped halike.1 hwritten, ?_⟩
      simpa [tokenFrom] using hend
    | false =>
      rw [escapesAlike] at halike
      unfold tokenFrom
      -- a backslash, the closing quote, a blank outside quotes, or any other character
      split at halike
      · next hslash =>
        obtain ⟨raw, hwritten, hend⟩ := ih halike
        rw [if_pos hslash]
        refine ⟨c :: raw, by rwa [hslash], ?_⟩
        simpa using hend
      · next hslash =>
        rw [if_neg hslash]
        split at halike
        · next hquote =>
          rw [if_pos hquote]
          exact ⟨[], .nil, .inr (.inl ⟨c, hquote, rfl⟩)⟩
        next hquote =>
        rw [if_neg hquote]
        split at halike
        · next hblank =>
          rw [if_pos hblank]
          rw [Bool.and_eq_true, decide_eq_true_eq] at hblank
          exact ⟨[], .nil, .inr (.inr ⟨hblank.1, rfl⟩)⟩
        · next hblank =>
          rw [if_neg hblank]
          obtain ⟨raw, hwritten, hend⟩ := ih halike
          refine ⟨c :: raw, .plain hslash hquote hwritten, ?_⟩
          simpa using hend

/-! ## The driver reads the same word -/

/-- The characters that the names in the tables have in either case: a dot, or no blank, quote or
semicolon. -/
def isNameChar (c : Char) : Bool := c = '.' || 64 < c.toNat

variable {c : Char}

theorem isNameChar_spec (hascii : c.toNat < 128) (hname : isNameChar c) :
    isWhitespace c = false ∧ c ≠ ';' ∧ c ≠ '"' ∧ c ≠ '\'' := by
  have h : isNameChar c → isWhitespace c = false ∧ c ≠ ';' ∧ c ≠ '"' ∧ c ≠ '\'' :=
    forall_ascii
      (P := fun c => isNameChar c → isWhitespace c = false ∧ c ≠ ';' ∧ c ≠ '"' ∧ c ≠ '\'')
      (by decide +kernel) hascii
  exact h hname

def IsName (token : Text) : Prop := ∀ c ∈ token, c.toNat < 128 ∧ isNameChar c

theorem escapedBytes_eq (h : standsForItself c) :
    readEscape c = fun _ => (String.utf8EncodeChar c, 0) := by
  simp only [standsForItself, mem_cons, not_mem_nil, or_false, not_or, decide_eq_true_eq] at h
  obtain ⟨hn, hr, ht, ha, hb, hf, hv, hx⟩ := h
  funext rest
  unfold readEscape
  rw [if_neg hx]
  unfold escapedBytes
  split <;> first | contradiction | rfl

/-- The driver reads a name as the desktop does. -/
theorem run_written {raw token : Text} (hwritten : Written quote raw token)
    (hname : IsName token) (rest : Text) {current : List UInt8} {started : Bool}
    (hstarted : quote ≠ none → started) :
    argvReader.run 0 ⟨current, quote, false, started⟩ (raw ++ rest) =
      argvReader.run 0 ⟨current ++ utf8 token, quote, false, started || !token.isEmpty⟩ rest := by
  induction hwritten generalizing current started with
  | nil => simp
  | @plain c raw token hslash hquote hrest ih =>
    have hstep : argvReader.step ⟨current, quote, false, started⟩ c (raw ++ rest) =
        (⟨current ++ String.utf8EncodeChar c, quote, false, true⟩, 0, []) := by
      -- a character of a name is neither a blank nor a quote, so it is pushed
      obtain ⟨hspace, -, hdouble, hsingle⟩ :=
        isNameChar_spec (hname c (by simp)).1 (hname c (by simp)).2
      rw [argvReader_step, argvStep]
      rw [if_neg hslash]
      cases quote with
      | some q =>
        have hne : c ≠ q := fun heq => hquote (by rw [heq])
        rw [hstarted (by simp)]
        simp [hne]
      | none => simp [hdouble, hsingle, hspace, ArgvState.push]
    rw [cons_append, Stepper.run_cons_silent hstep,
      ih (fun d hd => hname d (mem_cons_of_mem _ hd)) (fun _ => rfl), utf8_cons]
    simp
  | @escaped c raw token hself hrest ih =>
    have hslash : argvReader.step ⟨current, quote, false, started⟩ '\\' (c :: raw ++ rest) =
        (⟨current, quote, true, true⟩, 0, []) := rfl
    have hstep : argvReader.step ⟨current, quote, true, true⟩ c (raw ++ rest) =
        (⟨current ++ String.utf8EncodeChar c, quote, false, true⟩, 0, []) := by
      rw [argvReader_step, argvStep]
      rw [escapedBytes_eq hself]
      rfl
    rw [cons_append, Stepper.run_cons_silent hslash, cons_append, Stepper.run_cons_silent hstep,
      ih (fun d hd => hname d (mem_cons_of_mem _ hd)) (fun _ => rfl), utf8_cons]
    simp

theorem ne_of_isWhitespace (h : isWhitespace c) : c ≠ '\\' ∧ c ≠ '"' ∧ c ≠ '\'' := by
  refine ⟨?_, ?_, ?_⟩ <;> rintro rfl <;> exact absurd h (by decide)

theorem drop_length_takeWhile (p : Char → Bool) (text : Text) :
    text.drop (text.takeWhile p).length = text.dropWhile p := by
  have hsplit : (text.takeWhile p ++ text.dropWhile p).drop (text.takeWhile p).length =
      text.dropWhile p := drop_left
  rwa [takeWhile_append_dropWhile] at hsplit

/-- Leading blanks are skipped. -/
theorem run_trimStart (text : Text) :
    argvReader.run 0 {} text = argvReader.run 0 {} (trimStart text) := by
  cases text with
  | nil => rfl
  | cons c rest =>
    by_cases hblank : isWhitespace c
    · obtain ⟨hslash, hdouble, hsingle⟩ := ne_of_isWhitespace hblank
      have hstep : argvReader.step {} c rest = ({}, (rest.takeWhile isWhitespace).length, []) := by
        simp [argvReader_step, argvStep, hslash, hdouble, hsingle, hblank]
      rw [Stepper.run_cons, hstep, Stepper.run_drop, drop_length_takeWhile, trimStart,
        dropWhile_cons_of_pos hblank]
      rfl
    · rw [trimStart, dropWhile_cons_of_neg hblank]

/-- A word that ends with no trimmed character is not trimmed. -/
theorem trimEndMatches_append {p : Char → Bool} (h : p c = false) (s t : Text) :
    trimEndMatches p (s ++ c :: t) = s ++ c :: trimEndMatches p t := by
  unfold trimEndMatches rdropWhile
  rw [reverse_append, reverse_cons, append_assoc, dropWhile_append]
  split
  · next hnil =>
    have hkeep : ([c] ++ s.reverse).dropWhile p = [c] ++ s.reverse :=
      dropWhile_cons_of_neg (by rw [h]; exact Bool.false_ne_true)
    rw [isEmpty_iff.mp hnil, hkeep]
    simp
  · simp

theorem stripCommand_append (hblank : isWhitespace c = false) (hsemi : c ≠ ';')
    (s t : Text) : stripCommand (s ++ c :: t) = s ++ c :: stripCommand t := by
  rw [stripCommand, trimEnd, trimEndMatches_append hblank,
    trimEndMatches_append (decide_eq_false hsemi)]
  rfl

/-- A written name ends with a character of the name. -/
theorem Written.concat {raw token : Text} (hwritten : Written quote raw token)
    (hne : token ≠ []) : ∃ raw' c, c ∈ token ∧ raw = raw' ++ [c] := by
  induction hwritten with
  | nil => exact absurd rfl hne
  | @plain c raw token hslash hquote hrest ih =>
    by_cases hnil : token = []
    · subst hnil
      cases hrest
      exact ⟨[], c, by simp, rfl⟩
    · obtain ⟨raw', d, hd, rfl⟩ := ih hnil
      exact ⟨c :: raw', d, mem_cons_of_mem _ hd, rfl⟩
  | @escaped c raw token hself hrest ih =>
    by_cases hnil : token = []
    · subst hnil
      cases hrest
      exact ⟨['\\'], c, by simp, rfl⟩
    · obtain ⟨raw', d, hd, rfl⟩ := ih hnil
      exact ⟨'\\' :: c :: raw', d, mem_cons_of_mem _ hd, rfl⟩

variable {command : Text}

theorem arguments_of_parse {argv : List (List UInt8)}
    (hparse : parseCommandArgv command = .ok argv) :
    (argvReader.run 0 {} (stripCommand command)).1.arguments
      (argvReader.run 0 {} (stripCommand command)).2 = argv := by
  simp only [parseCommandArgv] at hparse
  split at hparse
  · cases hparse
  split at hparse
  · cases hparse
  · injection hparse

/-- The first argument is complete at the end of the text and at a blank. -/
theorem first_of_run {command after : Text} {current first : List UInt8} {rest : List (List UInt8)}
    (hrun : argvReader.run 0 {} (stripCommand command) =
      argvReader.run 0 ⟨current, none, false, true⟩ after)
    (hafter : ∀ c ∈ after.head?, isWhitespace c)
    (hparse : parseCommandArgv command = .ok (first :: rest)) : first = current := by
  have harguments := arguments_of_parse hparse
  rw [hrun] at harguments
  cases after with
  | nil =>
    injection harguments with hfirst hrest
    exact hfirst.symm
  | cons c after =>
    have hblank : isWhitespace c := hafter c rfl
    obtain ⟨hslash, hdouble, hsingle⟩ := ne_of_isWhitespace hblank
    have hstep : argvReader.step ⟨current, none, false, true⟩ c after =
        ({}, (after.takeWhile isWhitespace).length, [current]) := by
      simp [argvReader_step, argvStep, hslash, hdouble, hsingle, hblank]
    rw [Stepper.run_cons, hstep, ArgvState.arguments] at harguments
    split at harguments
    · injection harguments with hfirst hrest
      exact hfirst.symm
    · injection harguments with hfirst hrest
      exact hfirst.symm

theorem run_blank_append {lead : Text} (hlead : ∀ c ∈ lead, isWhitespace c) (text : Text) :
    argvReader.run 0 {} (lead ++ text) = argvReader.run 0 {} text := by
  rw [run_trimStart, trimStart, dropWhile_append_of_pos hlead, ← trimStart, ← run_trimStart]

variable {q : Char}

theorem quote_spec (hq : q = '"' ∨ q = '\'') : isWhitespace q = false ∧ q ≠ ';' := by
  rcases hq with rfl | rfl
  · decide
  · decide

theorem run_quote (hq : q = '"' ∨ q = '\'') (text : Text) :
    argvReader.run 0 {} (q :: text) = argvReader.run 0 ⟨[], some q, false, true⟩ text := by
  apply Stepper.run_cons_silent
  rcases hq with rfl | rfl
  · rfl
  · rfl

section Word

variable {lead raw token after : Text} {first : List UInt8} {rest : List (List UInt8)}
  (hlead : ∀ c ∈ lead, isWhitespace c) (hname : IsName token) (hne : token ≠ [])

include hlead hname hne

theorem first_of_plain (hwritten : Written none raw token)
    (hafter : ∀ c ∈ (stripCommand after).head?, isWhitespace c)
    (hparse : parseCommandArgv (lead ++ (raw ++ after)) = .ok (first :: rest)) :
    first = utf8 token := by
  obtain ⟨raw', c, hc, hraw⟩ := hwritten.concat hne
  obtain ⟨hblank, hsemi, -, -⟩ := isNameChar_spec (hname c hc).1 (hname c hc).2
  refine first_of_run ?_ hafter hparse
  have hstrip : stripCommand (lead ++ (raw ++ after)) = lead ++ (raw ++ stripCommand after) := by
    have happend := stripCommand_append hblank hsemi (lead ++ raw') after
    simpa [hraw] using happend
  have hstarted : (!token.isEmpty) := by simpa using hne
  rw [hstrip, run_blank_append hlead, run_written hwritten hname _ (fun h => absurd rfl h),
    Bool.false_or, hstarted, nil_append]

omit hne in
theorem first_of_quoted (hq : q = '"' ∨ q = '\'') (hwritten : Written (some q) raw token)
    (hafter : ∀ c ∈ (stripCommand after).head?, isWhitespace c)
    (hparse : parseCommandArgv (lead ++ q :: (raw ++ q :: after)) = .ok (first :: rest)) :
    first = utf8 token := by
  obtain ⟨hblank, hsemi⟩ := quote_spec hq
  refine first_of_run ?_ hafter hparse
  have hstrip : stripCommand (lead ++ q :: (raw ++ q :: after)) =
      lead ++ q :: (raw ++ q :: stripCommand after) := by
    have happend := stripCommand_append hblank hsemi (lead ++ q :: raw) after
    simpa using happend
  have hclose : argvReader.step ⟨[] ++ utf8 token, some q, false, true⟩ q (stripCommand after) =
      (⟨utf8 token, none, false, true⟩, 0, []) := by
    have hslash : q ≠ '\\' := by rcases hq with rfl | rfl <;> decide
    simp [argvReader_step, argvStep, hslash]
  rw [hstrip, run_blank_append hlead, run_quote hq, run_written hwritten hname _ (fun _ => rfl),
    Bool.true_or, Stepper.run_cons_silent hclose]

theorem parse_of_unclosed (hq : q = '"' ∨ q = '\'') (hwritten : Written (some q) raw token) :
    parseCommandArgv (lead ++ q :: raw) = .error "Redis command has an unterminated quote" := by
  obtain ⟨raw', c, hc, hraw⟩ := hwritten.concat hne
  obtain ⟨hblank, hsemi, -, -⟩ := isNameChar_spec (hname c hc).1 (hname c hc).2
  have hstrip : stripCommand (lead ++ q :: raw) = lead ++ q :: (raw ++ []) := by
    have happend : stripCommand (lead ++ q :: raw' ++ [c]) = lead ++ q :: raw' ++ c :: [] :=
      stripCommand_append hblank hsemi (lead ++ q :: raw') []
    simpa [hraw] using happend
  have hrun : argvReader.run 0 {} (stripCommand (lead ++ q :: raw)) =
      (⟨[] ++ utf8 token, some q, false, true⟩, []) := by
    rw [hstrip, run_blank_append hlead, run_quote hq, run_written hwritten hname [] (fun _ => rfl),
      Bool.true_or, Stepper.run_nil]
  rw [parseCommandArgv, hrun]
  rfl

end Word

/-- A text that starts with a quote, and the text behind it. -/
theorem openingQuote_eq_some (h : openingQuote text = some q) :
    (q = '"' ∨ q = '\'') ∧ text = q :: afterQuote text := by
  cases text with
  | nil => cases h
  | cons c rest =>
    have hafter : afterQuote (c :: rest) = rest := by rw [afterQuote, h]; rfl
    rw [hafter]
    rw [openingQuote] at h
    split at h
    · next hquote =>
      injection h with h
      subst h
      exact ⟨by simpa using hquote, rfl⟩
    · cases h

/-- **The driver sends the word that the desktop reads**, when the word is a name and written so
that both read it alike. -/
theorem firstArgument_eq {first : List UInt8} {rest : List (List UInt8)}
    (halike : ReadAlike command) (hname : IsName (firstWord command).1)
    (hne : (firstWord command).1 ≠ []) (hparse : parseCommandArgv command = .ok (first :: rest)) :
    first = utf8 (firstWord command).1 := by
  have hspec : ∃ raw, Written (openingQuote (jsTrimStart command)) raw (firstWord command).1 ∧
      (afterQuote (jsTrimStart command) = raw ∧ (firstWord command).2 = [] ∨
        (∃ q, openingQuote (jsTrimStart command) = some q ∧
          afterQuote (jsTrimStart command) = raw ++ q :: (firstWord command).2) ∨
        (openingQuote (jsTrimStart command) = none ∧
          afterQuote (jsTrimStart command) = raw ++ (firstWord command).2)) :=
    tokenFrom_spec halike.escapes
  obtain ⟨raw, hwritten, hend⟩ := hspec
  have hcommand : command = command.takeWhile isJsSpace ++ jsTrimStart command :=
    takeWhile_append_dropWhile.symm
  rw [hcommand] at hparse
  cases hquote : openingQuote (jsTrimStart command) with
  | none =>
    -- without quotes the word ends at a blank or with the text
    rw [hquote] at hwritten
    have htext : afterQuote (jsTrimStart command) = jsTrimStart command := by
      rw [afterQuote, hquote]
      rfl
    have hsplit : jsTrimStart command = raw ++ (firstWord command).2 := by
      rw [← htext]
      rcases hend with ⟨hraw, hrest⟩ | ⟨q, hsome, -⟩ | ⟨-, hraw⟩
      · rw [hraw, hrest, append_nil]
      · rw [hquote] at hsome
        cases hsome
      · exact hraw
    rw [hsplit] at hparse
    exact first_of_plain halike.start hname hne hwritten halike.stop hparse
  | some q =>
    rw [hquote] at hwritten
    obtain ⟨hq, htext⟩ := openingQuote_eq_some hquote
    rcases hend with ⟨hraw, -⟩ | ⟨q', hsome, hraw⟩ | ⟨hnone, -⟩
    · -- an unclosed quote is an error of the driver
      rw [htext, hraw, parse_of_unclosed halike.start hname hne hq hwritten] at hparse
      cases hparse
    · rw [hquote] at hsome
      cases hsome
      rw [htext, hraw] at hparse
      exact first_of_quoted halike.start hname hq hwritten halike.stop hparse
    · rw [hquote] at hnone
      cases hnone

/-! ## The tables -/

/-- The commands that the desktop takes for less than the driver does. -/
def underrated : List String := ["GETEX", "SUBSTR", "SLOWLOG"]

theorem RedisCommandSafety.rank_le (safety : RedisCommandSafety) :
    safety.rank ≤ RedisCommandSafety.blocked.rank := by
  cases safety <;> decide

variable {token : Text}

theorem isIn_iff {table : List String} :
    isIn table token ↔ token ∈ table.map String.toList := by
  simp [isIn]

theorem map_toList_cons {name : String} {names : List String} {texts : List Text}
    (hname : name.toList = text) (hnames : names.map String.toList = texts) :
    (name :: names).map String.toList = text :: texts := by
  rw [map_cons, hname, hnames]

-- The tables are compared character by character: evaluating `String.toList` in each comparison
-- is slow.
theorem tables_spec : ∃ under confirm write allowed dAllowed dConfirm dWrite : List Text,
    underrated.map String.toList = under ∧ confirmCommands.map String.toList = confirm ∧
    writeCommands.map String.toList = write ∧ allowedCommands.map String.toList = allowed ∧
    driverAllowedCommands.map String.toList = dAllowed ∧
    driverConfirmCommands.map String.toList = dConfirm ∧
    driverWriteCommands.map String.toList = dWrite ∧
    (∀ token ∈ allowed, token ∈ under ∨ token ∈ dAllowed ∨ token ∈ write ∨ token ∈ confirm) ∧
    (∀ token ∈ write, token ∈ confirm ∨ token ∈ dWrite ∧ token ∉ dConfirm) ∧
    (∀ token ∈ confirm, token ∈ dConfirm ∨ token ∈ dWrite ∨ token ∈ dAllowed) ∧
    ∀ token ∈ confirm ++ write ++ allowed, token ≠ [] ∧ ∀ c ∈ token, isNameChar c := by
  iterate 7 apply Exists.intro
  iterate 7
    apply And.intro
    · repeat apply map_toList_cons String.toList_ofList
      exact map_nil
  decide +kernel

/-- The token is in a table of the desktop other than that of the blocked commands. -/
def isShown (token : Text) : Prop :=
  isIn confirmCommands token ∨ isIn writeCommands token ∨ isIn allowedCommands token

/-- What the driver has for the commands of the desktop, and the characters of their names. -/
theorem tables_rated (token : Text) :
    (isIn allowedCommands token → isIn underrated token ∨ isIn driverAllowedCommands token ∨
      isIn writeCommands token ∨ isIn confirmCommands token) ∧
    (isIn writeCommands token → isIn confirmCommands token ∨
      isIn driverWriteCommands token ∧ ¬ isIn driverConfirmCommands token) ∧
    (isIn confirmCommands token → isIn driverConfirmCommands token ∨
      isIn driverWriteCommands token ∨ isIn driverAllowedCommands token) ∧
    (isShown token → token ≠ [] ∧ ∀ c ∈ token, isNameChar c) := by
  obtain ⟨_, _, _, _, _, _, _, hu, hc, hw, ha, hda, hdc, hdw, hallowed, hwrite, hconfirm,
    hnames⟩ := tables_spec
  simp only [isShown, isIn_iff, hu, hc, hw, ha, hda, hdc, hdw]
  refine ⟨hallowed token, hwrite token, hconfirm token, fun h => hnames token ?_⟩
  rwa [mem_append, mem_append, or_assoc]

/-- What is not blocked is in a table. -/
theorem classifyToken_cases (token : Text) : classifyToken token = .blocked ∨ isShown token := by
  unfold classifyToken
  split
  · exact .inl rfl
  · split
    · next h => exact .inr (.inl h)
    · split
      · next h => exact .inr (.inr (.inl h))
      · split
        · next h => exact .inr (.inr (.inr h))
        · exact .inl rfl

/-- **The tables agree**, but for the underrated commands. -/
theorem tables_agree (h : isIn underrated token = false) :
    (classifyName token).rank ≤ (classifyToken token).rank := by
  obtain ⟨hratedAllowed, hratedWrite, hratedConfirm, -⟩ := tables_rated token
  by_cases hallowed : isIn driverAllowedCommands token
  · rw [classifyName, if_pos hallowed]
    exact Nat.zero_le _
  unfold classifyToken
  split
  · exact RedisCommandSafety.rank_le _
  split
  · next hconfirm =>
    -- the driver has the name in a table of its own
    rw [classifyName, if_neg hallowed]
    rcases hratedConfirm hconfirm with hin | hin | hin
    · rw [if_pos hin]
    · split
      · exact Nat.le_refl _
      · decide
    · exact absurd hin hallowed
  · next hconfirm =>
    split
    · next hwrite =>
      obtain ⟨hin, hout⟩ := (hratedWrite hwrite).resolve_left hconfirm
      rw [classifyName, if_neg hallowed, if_neg hout, if_pos hin]
    next hwrite =>
    split
    · next hshown =>
      rcases hratedAllowed hshown with hin | hin | hin | hin
      · rw [h] at hin
        cases hin
      · exact absurd hin hallowed
      · exact absurd hin hwrite
      · exact absurd hin hconfirm
    · exact RedisCommandSafety.rank_le _

theorem isNameChar_of_toUpper (hascii : c.toNat < 128) (h : isNameChar c.toUpper) :
    isNameChar c := by
  have hupper : isNameChar c.toUpper → isNameChar c :=
    forall_ascii (P := fun c => isNameChar c.toUpper → isNameChar c) (by decide +kernel) hascii
  exact hupper h

/-- The bytes of an ASCII text are its characters. -/
theorem commandName_utf8 (h : ∀ c ∈ token, c.toNat < 128) :
    commandName (utf8 token) = token := by
  induction token with
  | nil => rfl
  | cons c token ih =>
    have hc : c.toNat < 128 := h c (by simp)
    rw [utf8_cons, utf8EncodeChar_ascii hc, commandName, singleton_append, map_cons,
      toNat_ofNat_of_lt (by omega), Char.ofNat_toNat, ← commandName,
      ih fun d hd => h d (mem_cons_of_mem _ hd)]

/-- **The class that is shown is at least as strict as that of the command that is sent.** `MONITOR`
alone is streamed and not sent as a command. -/
theorem shownAsStrict_of_readAlike
    (hupper : ∀ text : Text, (∀ c ∈ text, c.toNat < 128) → toUpperCase text = toAsciiUppercase text)
    {command : Text} (hmonitor : isRedisMonitorCommand command = false) (halike : ReadAlike command)
    (htable : isIn underrated (toAsciiUppercase (firstWord command).1) = false) :
    ShownAsStrict toUpperCase command := by
  intro first rest hparse
  rw [classifyRedisCommandSafety, hmonitor, if_neg Bool.false_ne_true, firstRedisCommandToken,
    hupper _ halike.ascii]
  rcases classifyToken_cases (toAsciiUppercase (firstWord command).1) with hblocked | hshown
  · rw [hblocked]
    exact RedisCommandSafety.rank_le _
  obtain ⟨hnonempty, hchars⟩ := (tables_rated _).2.2.2 hshown
  have hisName : IsName (firstWord command).1 := by
    intro c hc
    refine ⟨halike.ascii c hc, isNameChar_of_toUpper (halike.ascii c hc) (hchars _ ?_)⟩
    exact mem_map_of_mem hc
  have hne : (firstWord command).1 ≠ [] := by
    intro hnil
    rw [hnil] at hnonempty
    exact hnonempty rfl
  rw [firstArgument_eq halike hisName hne hparse, commandName_utf8 halike.ascii, classifyCommand]
  exact tables_agree htable

/-- A quoted `get` is shown for what it is. -/
theorem shownAsStrict_quotedGet : ShownAsStrict toAsciiUppercase "\"g\\et\" key;".toList := by
  apply shownAsStrict_of_readAlike
  · intro text hascii
    rfl
  · decide +kernel
  · refine ⟨by decide +kernel, by decide +kernel, by decide +kernel, fun c hc => ?_⟩
    rw [show (stripCommand _).head? = some ' ' by decide +kernel] at hc
    cases hc
    decide
  · decide +kernel

/-- The desktop reads `GET` where the driver joins the pieces and sends `GETDEL`. -/
theorem not_shownAsStrict_joined : ¬ ShownAsStrict toAsciiUppercase "\"GET\"DEL key".toList := by
  intro h
  have hparse : parseCommandArgv "\"GET\"DEL key".toList =
      .ok [utf8 "GETDEL".toList, utf8 "key".toList] := by
    decide +kernel
  exact absurd (h _ _ hparse) (by decide +kernel)

end Dbx.Redis
