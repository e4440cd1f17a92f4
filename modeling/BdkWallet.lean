import BdkWallet.Bip32
import BdkWallet.Miniscript.Key
import BdkWallet.Miniscript.Descriptor
import BdkWallet.Descriptor.Meta
import BdkWallet.Descriptor.IntoWallet
import BdkWallet.Descriptor.Check
import BdkWallet.Descriptor.Matcher
