import KungFuChess.Proof.Captures
import KungFuChess.Proof.Winner
import KungFuChess.Proof.Apart
import KungFuChess.Proof.Ownership
import KungFuChess.Proof.Selection
import KungFuChess.Proof.Symmetry
import KungFuChess.Proof.Reader
import KungFuChess.Proof.Registry
import KungFuChess.Proof.Seats
import KungFuChess.Proof.Clocks
import KungFuChess.Proof.Lobby
import KungFuChess.Proof.Allocation
import KungFuChess.Proof.Matchmaker
import KungFuChess.Proof.Regions
import KungFuChess.Proof.Stores
import KungFuChess.Proof.Locations
import KungFuChess.Proof.Queues
import KungFuChess.Proof.Connections
import KungFuChess.Proof.Search
import KungFuChess.Proof.Fleet
import KungFuChess.Proof.Searchers
import KungFuChess.Proof.Interception
import KungFuChess.Proof.Cooldowns
import KungFuChess.Proof.Landings
import KungFuChess.Proof.Transport
import KungFuChess.Proof.NetworkInput
import KungFuChess.Proof.Drivers
import KungFuChess.Proof.Codec
import KungFuChess.Proof.Entries
import KungFuChess.Proof.Commands
import KungFuChess.Proof.Selectable
import KungFuChess.Proof.Grammar
import KungFuChess.Proof.BoardText
import KungFuChess.Proof.Layout
import KungFuChess.Proof.ClientReaders
import KungFuChess.Proof.PasswordHasher
import KungFuChess.Proof.Logger
import KungFuChess.Proof.Config
import KungFuChess.Proof.RoomGames
import KungFuChess.Proof.Accounts
import KungFuChess.Proof.Redirects
import KungFuChess.Proof.Display
import KungFuChess.Proof.Books
import KungFuChess.Proof.Vpl
import KungFuChess.Proof.Http
