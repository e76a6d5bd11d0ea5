import LibraryPlayer.Browser.Audio
import LibraryPlayer.Browser.Basic
import LibraryPlayer.Browser.Listening
import LibraryPlayer.Browser.Publishing
import LibraryPlayer.Browser.Visit
import LibraryPlayer.Catalog.Client
import LibraryPlayer.Catalog.Query
import LibraryPlayer.Catalog.Reply
import LibraryPlayer.Catalog.Ticket
import LibraryPlayer.Catalog.Track
import LibraryPlayer.Json.Basic
import LibraryPlayer.Json.Numeral
import LibraryPlayer.Json.Quoted
import LibraryPlayer.Json.Reader
import LibraryPlayer.Json.Skip
import LibraryPlayer.Location.Address
import LibraryPlayer.Location.Hash
import LibraryPlayer.Number.Binary64
import LibraryPlayer.Number.Rounding
import LibraryPlayer.Page.Icon
import LibraryPlayer.Page.Markup
import LibraryPlayer.Page.State
import LibraryPlayer.Page.View
import LibraryPlayer.Playback.Bar
import LibraryPlayer.Playback.Controller
import LibraryPlayer.Playback.Deck
import LibraryPlayer.Playback.Display
import LibraryPlayer.Playback.Event
import LibraryPlayer.Playback.Failure
import LibraryPlayer.Playback.Media
import LibraryPlayer.Playback.NowPlaying
import LibraryPlayer.Playback.Queue
import LibraryPlayer.Playback.TimeLabel
import LibraryPlayer.Proofs.Catalog.Documents
import LibraryPlayer.Proofs.Catalog.Requests
import LibraryPlayer.Proofs.Catalog.Rewriting
import LibraryPlayer.Proofs.Catalog.Route
import LibraryPlayer.Proofs.Catalog.Wholeness
import LibraryPlayer.Proofs.Json.CutReadings
import LibraryPlayer.Proofs.Json.Cuts
import LibraryPlayer.Proofs.Json.Grammar
import LibraryPlayer.Proofs.Json.Numerals
import LibraryPlayer.Proofs.Json.Punctuation
import LibraryPlayer.Proofs.Json.Readings
import LibraryPlayer.Proofs.Json.Skipping
import LibraryPlayer.Proofs.Json.Texts
import LibraryPlayer.Proofs.Location.Hash
import LibraryPlayer.Proofs.Page.Elements
import LibraryPlayer.Proofs.Page.HashChanges
import LibraryPlayer.Proofs.Page.Independence
import LibraryPlayer.Proofs.Page.Ledger
import LibraryPlayer.Proofs.Page.Reload
import LibraryPlayer.Proofs.Page.Searches
import LibraryPlayer.Proofs.Page.Selection
import LibraryPlayer.Proofs.Page.Sessions
import LibraryPlayer.Proofs.Page.Sides
import LibraryPlayer.Proofs.Page.Snapshots
import LibraryPlayer.Proofs.Page.Starts
import LibraryPlayer.Proofs.Playback.Advance
import LibraryPlayer.Proofs.Playback.Calls
import LibraryPlayer.Proofs.Playback.DeckCalls
import LibraryPlayer.Proofs.Playback.Delivery
import LibraryPlayer.Proofs.Playback.Element
import LibraryPlayer.Proofs.Playback.Marker
import LibraryPlayer.Proofs.Playback.Recording
import LibraryPlayer.Proofs.Playback.Replacement
import LibraryPlayer.Proofs.Text.Blank
import LibraryPlayer.Proofs.Text.Percent
import LibraryPlayer.Text.Blank
import LibraryPlayer.Text.Octets
import LibraryPlayer.Text.Percent
import LibraryPlayer.Proofs.Number.Doubles
import LibraryPlayer.Proofs.Playback.TimeLabels
import LibraryPlayer.Proofs.Number.Arithmetic
import LibraryPlayer.Proofs.Playback.Widths
import LibraryPlayer.Proofs.Playback.Buffering
import LibraryPlayer.Proofs.Location.Reference
import LibraryPlayer.Proofs.Location.PageDirectory
import LibraryPlayer.Proofs.Browser.Audio
import LibraryPlayer.Proofs.Browser.Listening
import LibraryPlayer.Proofs.Browser.Publishing
import LibraryPlayer.Proofs.Browser.Visits
