import AttributeCheck.Inspect
import AttributeCheck.Validator

/-! # Sessions: requests to several validators with common state -/

namespace AttributeCheck

/-- Validators, their caches, and the notes that sinks of the host have kept. -/
structure Session where
  validators : List Validator
  caches : Caches
  notes : List String

/-- What a validator can be asked. -/
inductive Request where
  | validate (declared : Declarations) (bag : Entries String Value) (component : Option String)
      (location : Location)
  /-- Asks for the first failure instead of reporting all. -/
  | firstFailure (declared : Declarations) (bag : Entries String Value) (component : Option String)
  | warn (condition : Bool) (format : Option String) (args : List Value)
  | mark (message : String)
  | isMarked (message : String)
  | isCacheEmpty
  | ignoredStart
  | listChannel

/-- The answer to a request. -/
inductive Answer where
  | done
  | flag (b : Bool)
  | text (s : Option String)
  | verdict (failure : Option Failure)
  | warning (result : Except Misuse Unit)

/-- An answer with what was observed on the way. -/
structure Reply where
  answer : Answer
  effects : List Effect
  calls : List Call

namespace Reply

def ofAnswer (answer : Answer) : Reply :=
  ⟨answer, [], []⟩

/-- The lines written to standard error. -/
def stderr (r : Reply) : String :=
  String.join (r.effects.filterMap Effect.stderrLine? |>.map (· ++ "\n"))

def records (r : Reply) : List Record :=
  r.effects.filterMap Effect.record?

def notes (r : Reply) : List String :=
  r.effects.filterMap Effect.note?

end Reply

/-- Warns with the texts of some values. -/
def Channel.warnValues (channel : Channel) (condition : Bool) (format : Option String)
    (args : List Value) : Reply :=
  let (result, effects) := channel.warn condition format (args.map Value.text)
  ⟨.warning result, effects, []⟩

/-- Answers a request with the caches as they are. -/
def Validator.answer (v : Validator) (caches : Caches) : Request → Caches × Reply
  | .validate declared bag component location =>
      let (caches, effects, calls) := v.validate caches declared bag component location
      (caches, ⟨.done, effects, calls⟩)
  | .firstFailure declared bag component =>
      let evaluation := declared.firstFailure bag component
      (caches, ⟨.verdict evaluation.failure, evaluation.events.map .event, evaluation.calls⟩)
  | .warn condition format args => (caches, v.channel.warnValues condition format args)
  | .mark message =>
      let (isNew, cache) := (caches.get v.cache).mark message
      (caches.set v.cache cache, .ofAnswer (.flag isNew))
  | .isMarked message => (caches, .ofAnswer (.flag ((caches.get v.cache).contains message)))
  | .isCacheEmpty => (caches, .ofAnswer (.flag (caches.get v.cache).isEmpty))
  | .ignoredStart => (caches, .ofAnswer (.text v.channel.ignored))
  | .listChannel => (caches, .ofAnswer (.text (some (Inspect.channel v.channel))))

namespace Session

/-- A session that has seen nothing. -/
def start (validators : List Validator) : Session :=
  ⟨validators, [], []⟩

/-- Asks a validator, which need not be one of the session's own. -/
def ask (s : Session) (v : Validator) (request : Request) : Session × Reply :=
  let (caches, reply) := v.answer s.caches request
  (⟨s.validators, caches, s.notes ++ reply.notes⟩, reply)

def setCache (s : Session) (index : Nat) (cache : CacheName) : Session :=
  { s with validators := s.validators.modify index fun v => { v with cache } }

def setChannel (s : Session) (index : Nat) (channel : Channel) : Session :=
  { s with validators := s.validators.modify index fun v => { v with channel } }

/-- The size of each validator's cache. -/
def cacheSizes (s : Session) : List Nat :=
  s.validators.map fun v => (s.caches.get v.cache).size

/-- Whether two validators have one cache. -/
def sameCache (v w : Validator) : Bool :=
  v.cache == w.cache

/-- All notes, and the session without them. -/
def takeNotes (s : Session) : List String × Session :=
  (s.notes, { s with notes := [] })

end Session

end AttributeCheck
