import CoinLedger.UseCase
/-!
# Commands

What a user may ask of the ledger, as data: each command is one of the use cases with its
arguments. Statements about any number of users at work range over commands.
-/

namespace CoinLedger

/-- A use case with its arguments. -/
inductive Command where
  | ensureCreated (user : UserId)
  | buyItem (user : UserId) (name : String)
  | sendCoins (sender : UserId) (name : Username) (amount : Coins)
  | accountInfo (user : UserId)
  deriving DecidableEq

namespace Command

/-- The user on whose behalf a command is run. -/
def user : Command → UserId
  | ensureCreated u => u
  | buyItem u _ => u
  | sendCoins u _ _ => u
  | accountInfo u => u

/-- The use case of a command; the only one that shows something is the account view. -/
def program (seed : Coins) : Command → UseCase (Option AccountInfo)
  | ensureCreated u => do UseCase.ensureCreated seed u; pure none
  | buyItem u name => do UseCase.buyItem u name; pure none
  | sendCoins u name amount => do UseCase.sendCoins seed u name amount; pure none
  | accountInfo u => do pure (some (← UseCase.accountInfo u))

/-- The use case of a command behind the gate, which provisions the user first. -/
def admitted (seed : Coins) (c : Command) : UseCase (Option AccountInfo) := do
  UseCase.ensureCreated seed c.user
  c.program seed

end Command

end CoinLedger
